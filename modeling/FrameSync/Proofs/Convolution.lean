import Mathlib.Algebra.Order.Floor.Div
import FrameSync.Proofs.Sound

/-!
The filter bank as a convolution. Branch `b` of `n` holds every `n`-th tap of the prototype from tap
`b` on, and the ring holds the latest samples, wherever it starts. So the output of a branch is a
sum over samples by age, in which neither the ring nor the branches occur any more.
-/

namespace FrameSync

inductive BankCall where
  | push (x : Sample)
  | output (index : Nat)
  | setScale (scale : Float32)
  | reset

/-- The samples that a bank was given since it last forgot them, newest first, and its scale. -/
structure Heard where
  samples : List Sample := []
  scale : Float32 := 1

namespace Heard

def apply (h : Heard) : BankCall → Heard
  | .push x => { h with samples := x :: h.samples }
  | .output _ => h
  | .setScale scale => { h with scale }
  | .reset => { h with samples := [] }

def after (calls : List BankCall) : Heard :=
  calls.foldl apply {}

def past (h : Heard) (age : Nat) : Sample := h.samples.getD age 0

end Heard

/-- How many samples an output depends on: the taps of the longest of `n` branches. -/
def reach (prototype : Array Float32) (n : Nat) : Nat := prototype.size ⌈/⌉ n

def tapAt (prototype : Array Float32) (n branch position : Nat) : Float32 :=
  prototype.getD (position * n + branch) 0

/-- The output of a branch as a sum over samples, newest first. -/
def convolution (prototype : Array Float32) (n index : Nat) (h : Heard) : Sample :=
  let terms := (List.range (reach prototype n)).map fun j =>
    (h.past j).scale (tapAt prototype n (min index (n - 1)) j)
  (Sample.sum terms).scale h.scale

namespace FilterBank

def apply (b : FilterBank) : BankCall → FilterBank
  | .push x => b.push x
  | .output _ => b
  | .setScale scale => b.setScale scale
  | .reset => b.reset

def after (b : FilterBank) (calls : List BankCall) : FilterBank :=
  calls.foldl apply b

theorem Operated.apply {b₀ b : FilterBank} (operated : Operated b₀ b) (call : BankCall) :
    Operated b₀ (b.apply call) := by
  cases call with
  | push x => exact operated.push x
  | output index => exact operated
  | setScale scale => exact operated.setScale scale
  | reset => exact operated.reset

section Taps

variable {n span : Nat}

def tap (branches : Array (Array Float32)) (branch position : Nat) : Float32 :=
  (branches.getD branch #[]).getD position 0

theorem position_unique {branch position i : Nat} (within : branch < n) :
    (i % n = branch ∧ i / n = position) ↔ position * n + branch = i := by
  constructor
  · rintro ⟨rfl, rfl⟩
    exact Nat.div_add_mod' i n
  · rintro rfl
    have positive : 0 < n := Nat.zero_lt_of_lt within
    rw [Nat.add_comm, Nat.add_mul_mod_self_right, Nat.add_mul_div_right _ _ positive,
      Nat.mod_eq_of_lt within, Nat.div_eq_of_lt within, Nat.zero_add]
    exact ⟨rfl, rfl⟩

theorem tap_modify {branches : Array (Array Float32)} (count : branches.size = n)
    (sizes : ∀ branch ∈ branches, branch.size = span) {branch position : Nat}
    (within : branch < n) (short : position < span) (i : Nat) (c : Float32) :
    tap (branches.modify (i % n) (·.setIfInBounds (i / n) c)) branch position =
      if position * n + branch = i then c else tap branches branch position := by
  have bound : branch < branches.size := by omega
  have size : branches[branch].size = span := sizes _ (Array.getElem_mem bound)
  have modified : (branches.modify (i % n) (·.setIfInBounds (i / n) c)).getD branch #[] =
      if i % n = branch then branches[branch].setIfInBounds (i / n) c else branches[branch] := by
    rw [Array.getD, dif_pos (by simpa using bound)]
    exact Array.getElem_modify _
  have old : branches.getD branch #[] = branches[branch] := by simp [Array.getD, bound]
  simp only [tap, modified, old]
  by_cases here : position * n + branch = i
  · obtain ⟨rfl, rfl⟩ := (position_unique within).mpr here
    simp [Array.getD, here, size, short]
  · rw [if_neg here]
    split
    next same =>
      have apart : i / n ≠ position := fun place => here ((position_unique within).mp ⟨same, place⟩)
      simp [Array.getD_eq_getD_getElem?, apart]
    · rfl

theorem tap_deal (taps : List Float32) (i : Nat) {branches : Array (Array Float32)}
    (count : branches.size = n) (sizes : ∀ branch ∈ branches, branch.size = span)
    {branch position : Nat} (within : branch < n) (short : position < span) :
    tap (deal n taps i branches) branch position =
      if i ≤ position * n + branch ∧ position * n + branch < i + taps.length then
        taps.getD (position * n + branch - i) 0
      else tap branches branch position := by
  induction taps generalizing i branches with
  | nil =>
    rw [if_neg (by simp)]
    rfl
  | cons c taps ih =>
    have first : (branches.modify (i % n) (·.setIfInBounds (i / n) c)).size = branches.size ∧ _ :=
      @mem_deal n span [c] i branches sizes
    rw [deal, ih (i + 1) (first.1.trans count) first.2, tap_modify count sizes within short]
    generalize position * n + branch = t
    simp only [List.length_cons]
    by_cases here : t = i
    · rw [if_neg (by omega), if_pos here, if_pos (by omega), here, Nat.sub_self]
      rfl
    · rw [if_neg here]
      by_cases later : i + 1 ≤ t ∧ t < i + 1 + taps.length
      · rw [if_pos later, if_pos (by omega), show t - i = t - (i + 1) + 1 by omega]
        rfl
      · rw [if_neg later, if_neg (by omega)]

end Taps

structure DealtFrom (prototype : Array Float32) (n : Nat) (b : FilterBank) : Prop where
  count : b.branchCount = n
  span : b.span = reach prototype n
  sizes : ∀ taps ∈ b.branches, taps.size = b.span
  taps : ∀ branch < n, ∀ position < b.span,
    tap b.branches branch position = tapAt prototype n branch position

theorem DealtFrom.apply {prototype : Array Float32} {n : Nat} {b : FilterBank}
    (dealt : DealtFrom prototype n b) (call : BankCall) : DealtFrom prototype n (b.apply call) := by
  cases call <;> exact ⟨dealt.count, dealt.span, dealt.sizes, dealt.taps⟩

theorem DealtFrom.exists_row {prototype : Array Float32} {n branch : Nat} {b : FilterBank}
    (dealt : DealtFrom prototype n b) (within : branch < n) :
    ∃ row, b.branches[branch]? = some row ∧ row.size = b.span ∧
      ∀ position < b.span, row[position]? = some (tapAt prototype n branch position) := by
  have bound : branch < b.branches.size := by
    have count : b.branches.size = n := dealt.count
    omega
  have size : b.branches[branch].size = b.span := dealt.sizes _ (Array.getElem_mem bound)
  refine ⟨_, Array.getElem?_eq_getElem bound, size, fun position short => ?_⟩
  rw [← dealt.taps branch within position short]
  simp [tap, Array.getD, bound, size, short]

theorem DealtFrom.size_branch {prototype : Array Float32} {n branch : Nat} {b : FilterBank}
    (dealt : DealtFrom prototype n b) (within : branch < n) :
    (b.branches.getD branch #[]).size = b.span := by
  obtain ⟨row, found, size, -⟩ := dealt.exists_row within
  rw [Array.getD_eq_getD_getElem?, found, Option.getD_some, size]

theorem ofPrototype_eq_ok {prototype : Array Float32} {n : Nat} (nonempty : 0 < prototype.size)
    (positive : 0 < n) :
    ∃ b, ofPrototype prototype n = .ok b ∧ DealtFrom prototype n b ∧
      b.ring = Array.replicate b.span 0 ∧ b.next = 0 ∧ b.scale = 1 := by
  have filled : ¬prototype.isEmpty := by
    rw [Array.isEmpty_iff_size_eq_zero]
    omega
  have span : (prototype.size + n - 1) / n = reach prototype n :=
    (Nat.ceilDiv_eq_add_pred_div prototype.size n).symm
  rw [ofPrototype, if_neg (by omega), if_neg filled]
  refine ⟨_, rfl, ?_, rfl, rfl, rfl⟩
  generalize (prototype.size + n - 1) / n = width at span
  have count : (Array.replicate n (Array.replicate width (0 : Float32))).size = n :=
    Array.size_replicate
  have blank : ∀ branch ∈ Array.replicate n (Array.replicate width (0 : Float32)),
      branch.size = width := by
    intro branch member
    rw [Array.eq_of_mem_replicate member, Array.size_replicate]
  have dealt := @mem_deal n width prototype.toList 0 _ blank
  refine ⟨dealt.1.trans count, span, dealt.2, ?_⟩
  intro branch within position short
  have zero :
      tap (Array.replicate n (Array.replicate width (0 : Float32))) branch position = 0 := by
    simp [tap, Array.getD_eq_getD_getElem?, Array.getElem?_replicate, within]
    split <;> rfl
  dsimp only at short ⊢
  rw [tap_deal _ _ count blank within short, zero, tapAt, Nat.sub_zero]
  split
  next inside => simp [Array.getD_eq_getD_getElem?, List.getD_eq_getElem?_getD]
  next outside =>
    have beyond : prototype.size ≤ position * n + branch := by
      rw [Array.length_toList] at outside
      omega
    rw [Array.getD_eq_getD_getElem?, Array.getElem?_eq_none beyond, Option.getD_none]

section Ring

variable {b : FilterBank} {age : Nat}

def place (b : FilterBank) (age : Nat) : Nat := (b.next + b.span - 1 - age) % b.span

theorem place_eq (inside : b.next < b.span) (recent : age < b.span) :
    b.place age = if age < b.next then b.next - 1 - age else b.next + b.span - 1 - age := by
  unfold place
  split
  · rw [show b.next + b.span - 1 - age = b.next - 1 - age + b.span by omega, Nat.add_mod_right]
    exact Nat.mod_eq_of_lt (by omega)
  · exact Nat.mod_eq_of_lt (by omega)

theorem next_push (inside : b.next < b.span) (x : Sample) :
    (b.push x).next = if b.next + 1 = b.span then 0 else b.next + 1 := by
  change (b.next + 1) % b.span = _
  split
  next last => rw [last, Nat.mod_self]
  next => exact Nat.mod_eq_of_lt (by omega)

theorem past_push (regular : b.Regular) (x : Sample) :
    (b.push x).past 0 = x ∧ ∀ age, age + 1 < b.span → (b.push x).past (age + 1) = b.past age := by
  have inside := regular.next
  have next := next_push inside x
  have inside' : (b.push x).next < (b.push x).span := by
    change _ < b.span
    split at next <;> omega
  have written (age : Nat) : (b.push x).past age =
      if b.next = (b.push x).place age then x else b.ring.getD ((b.push x).place age) 0 := by
    change (b.ring.setIfInBounds b.next x).getD ((b.push x).place age) 0 = _
    rw [Array.getD_eq_getD_getElem?, Array.getElem?_setIfInBounds, Array.getD_eq_getD_getElem?,
      regular.ring]
    split
    · rw [Option.getD_some]
    · rfl
  constructor
  · rw [written, if_pos]
    rw [place_eq inside' (Nat.zero_lt_of_lt inside')]
    change _ = if 0 < _ then _ else _ + b.span - 1 - 0
    split at next <;> split <;> omega
  · intro age recent
    have moved : (b.push x).place (age + 1) = b.place age := by
      have span : (b.push x).span = b.span := rfl
      rw [place_eq inside' recent, place_eq inside (by omega)]
      split at next <;> split <;> split <;> omega
    have apart : b.next ≠ b.place age := by
      rw [place_eq inside (by omega)]
      split <;> omega
    rw [written, moved, if_neg apart]
    rfl

theorem past_reset (b : FilterBank) (age : Nat) : b.reset.past age = 0 := by
  change (Array.replicate b.span 0).getD _ 0 = 0
  rw [Array.getD_eq_getD_getElem?, Array.getElem?_replicate]
  split <;> rfl

theorem weightedSum_eq (b : FilterBank) (taps : List Float32) (age : Nat) (sum : Sample) :
    b.weightedSum taps age sum =
      ((List.range taps.length).map fun j => (b.past (age + j)).scale (taps.getD j 0)).foldl
        (· + ·) sum := by
  induction taps generalizing age sum with
  | nil => rfl
  | cons c taps ih =>
    rw [weightedSum, ih, List.length_cons, List.range_succ_eq_map, List.map_cons, List.foldl_cons,
      List.map_map]
    congr 1
    apply List.map_congr_left
    intro j _
    rw [Nat.add_assoc, Nat.add_comm 1]
    rfl

end Ring

end FilterBank

open FilterBank

/-- A bank that holds the taps of the prototype and as much of what it heard as it can. -/
structure Hears (prototype : Array Float32) (n : Nat) (b : FilterBank) (h : Heard) : Prop where
  dealt : DealtFrom prototype n b
  regular : b.Regular
  past : ∀ age < b.span, b.past age = h.past age
  scale : b.scale = h.scale

namespace Hears

variable {prototype : Array Float32} {n : Nat} {b : FilterBank} {h : Heard}

theorem apply (hears : Hears prototype n b h) (call : BankCall) :
    Hears prototype n (b.apply call) (h.apply call) := by
  have dealt := hears.dealt.apply call
  have regular := (Operated.made.apply call).regular hears.regular
  cases call with
  | push x =>
    have pushed := past_push hears.regular x
    refine ⟨dealt, regular, ?_, hears.scale⟩
    intro age recent
    cases age with
    | zero => exact pushed.1
    | succ age => exact (pushed.2 age recent).trans (hears.past age (Nat.lt_of_succ_lt recent))
  | output index => exact hears
  | setScale scale => exact ⟨dealt, regular, hears.past, rfl⟩
  | reset => exact ⟨dealt, regular, fun age _ => past_reset b age, hears.scale⟩

theorem after (hears : Hears prototype n b h) (calls : List BankCall) :
    Hears prototype n (b.after calls) (calls.foldl Heard.apply h) := by
  induction calls generalizing b h with
  | nil => exact hears
  | cons call calls ih => exact ih (hears.apply call)

theorem output (hears : Hears prototype n b h) (index : Nat) :
    b.output index = convolution prototype n index h := by
  have positive := hears.regular.branches
  have within : min index (n - 1) < n := by
    rw [hears.dealt.count] at positive
    omega
  have terms : ((List.range b.span).map fun j => (b.past (0 + j)).scale
        ((b.branches.getD (min index (n - 1)) #[]).toList.getD j 0)) =
      (List.range b.span).map fun j =>
        (h.past j).scale (tapAt prototype n (min index (n - 1)) j) := by
    apply List.map_congr_left
    intro j member
    have short : j < b.span := List.mem_range.mp member
    rw [Nat.zero_add, hears.past j short, ← hears.dealt.taps _ within j short, tap,
      List.getD_eq_getElem?_getD, Array.getElem?_toList, ← Array.getD_eq_getD_getElem?]
  simp only [FilterBank.output, convolution, hears.dealt.count]
  rw [weightedSum_eq, Array.length_toList, hears.dealt.size_branch within, terms, hears.scale,
    hears.dealt.span]
  rfl

end Hears

/-- What a bank made of the prototype computes, whatever is done with it. -/
structure Convolves (prototype : Array Float32) (n : Nat) (b₀ : FilterBank) : Prop where
  output (calls : List BankCall) (index : Nat) :
    (b₀.after calls).output index = convolution prototype n index (.after calls)
  /-- The branches hold the taps that belong to them, and zeros behind. -/
  dealt : DealtFrom prototype n b₀
  once (t : Nat) (within : t < prototype.size) :
    ∃! p : Nat × Nat, p.1 < n ∧ p.2 < reach prototype n ∧ p.2 * n + p.1 = t
  /-- Two uses with the same latest samples and the same scale lead to the same outputs. -/
  recent (calls calls' : List BankCall)
    (same : ∀ age < reach prototype n, (Heard.after calls).past age = (Heard.after calls').past age)
    (scale : (Heard.after calls).scale = (Heard.after calls').scale) (index : Nat) :
    (b₀.after calls).output index = (b₀.after calls').output index

theorem bank_convolves {prototype : Array Float32} {n : Nat} (nonempty : 0 < prototype.size)
    (positive : 0 < n) :
    ∃ b₀, ofPrototype prototype n = .ok b₀ ∧ Convolves prototype n b₀ := by
  obtain ⟨b₀, made, dealt, ring, next, scale⟩ := ofPrototype_eq_ok nonempty positive
  have hears : Hears prototype n b₀ {} := by
    refine ⟨dealt, regular_ofPrototype made, fun age _ => ?_, scale⟩
    have fresh : b₀.reset = b₀ := by rw [FilterBank.reset, ← ring, ← next]
    rw [← fresh]
    exact past_reset b₀ age
  have output (calls : List BankCall) (index : Nat) :
      (b₀.after calls).output index = convolution prototype n index (.after calls) :=
    (hears.after calls).output index
  refine ⟨b₀, made, ⟨output, dealt, ?_, ?_⟩⟩
  · intro t within
    refine ⟨(t % n, t / n), ⟨Nat.mod_lt t positive, ?_, Nat.div_add_mod' t n⟩, ?_⟩
    · have reached : prototype.size ≤ n * reach prototype n := le_smul_ceilDiv positive
      rw [Nat.div_lt_iff_lt_mul positive, Nat.mul_comm]
      exact Nat.lt_of_lt_of_le within reached
    · rintro ⟨branch, position⟩ ⟨below, -, sum⟩
      obtain ⟨rfl, rfl⟩ := (position_unique below).mpr sum
      rfl
  · intro calls calls' same scale index
    rw [output, output]
    simp only [convolution, scale]
    congr 2
    apply List.map_congr_left
    intro age member
    rw [same age (List.mem_range.mp member)]

/-- Five taps leave the last place of the second branch empty. Before the reset there was a sample
that counts no longer, and an index past the end means the second branch. -/
theorem bank_convolves_five :
    ∃ b₀, ofPrototype #[1, 2, 3, 4, 5] 2 = .ok b₀ ∧ Convolves #[1, 2, 3, 4, 5] 2 b₀ ∧
      let calls := [.push (.real 7), .reset, .push (.real 1), .output 0, .setScale 0.5,
        .push (.real 3), .push (.real 4)]
      (b₀.after calls).output 9 = .real 10 ∧ (b₀.after calls).output 0 = .real 9 := by
  obtain ⟨b₀, made, convolves⟩ :=
    @bank_convolves #[1, 2, 3, 4, 5] 2 (by decide) (by decide)
  refine ⟨b₀, made, convolves, ?_⟩
  simp only [convolves.output]
  decide +kernel

end FrameSync
