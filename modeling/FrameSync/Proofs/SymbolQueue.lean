import FrameSync.Proofs.SymbolBuffer

/-!
The symbol buffer against its plain form: a window length and a list of fewer symbols. There is no
storage in the plain form, so nothing can be left over in it, and a change of the length cuts the
list at once. Both answer every sequence of operations alike.
-/

namespace FrameSync

inductive BufferCall where
  | push (x : Sample)
  | resize (length : Nat)
  | clear

/-- What can be done with a buffer of symbols, however it is kept. -/
class Buffering (B : Type) where
  push : B → Sample → B × Option Window
  resize : B → Nat → Except Fault (B × List Window)
  clear : B → B

namespace Buffering

variable {B : Type} [Buffering B]

/-- The buffer after an operation, and the windows handed out or the refusal. A refused operation
changes nothing. -/
def perform (b : B) : BufferCall → B × Except Fault (List Window)
  | .push x => ((push b x).1, .ok (push b x).2.toList)
  | .resize length =>
    match resize b length with
    | .ok (b', windows) => (b', .ok windows)
    | .error fault => (b, .error fault)
  | .clear => (clear b, .ok [])

def after (b : B) (calls : List BufferCall) : B :=
  calls.foldl (fun b call => (perform b call).1) b

def answers (b : B) : List BufferCall → List (Except Fault (List Window))
  | [] => []
  | call :: calls => (perform b call).2 :: answers (perform b call).1 calls

end Buffering

instance : Buffering SymbolBuffer where
  push := SymbolBuffer.push
  resize := SymbolBuffer.resize
  clear := SymbolBuffer.clear

/-- The length of a window and the symbols of the next one so far, at least one less. -/
structure SymbolQueue where
  length : Nat
  symbols : List Sample
  room : symbols.length < length

namespace SymbolQueue

def ofLength (length : Nat) (positive : 0 < length) : SymbolQueue := ⟨length, [], positive⟩

def clear (q : SymbolQueue) : SymbolQueue := ⟨q.length, [], Nat.zero_lt_of_lt q.room⟩

def push (q : SymbolQueue) (x : Sample) : SymbolQueue × Option Window :=
  if short : (q.symbols ++ [x]).length < q.length then
    (⟨q.length, q.symbols ++ [x], short⟩, none)
  else (q.clear, some (q.symbols ++ [x]).toArray)

def pieces (symbols : List Sample) (l n : Nat) : List Window :=
  (List.range n).map fun i => ((symbols.drop (i * l)).take l).toArray

def remainder (symbols : List Sample) (l : Nat) : List Sample :=
  symbols.drop (symbols.length - symbols.length % l)

theorem length_remainder (symbols : List Sample) (l : Nat) :
    (remainder symbols l).length = symbols.length % l := by
  have := Nat.mod_le symbols.length l
  rw [remainder, List.length_drop]
  omega

/-- A longer window is refused if its samples, of eight bytes each, take more than `2 ^ 63 - 1`
bytes. -/
def resize (q : SymbolQueue) (l : Nat) : Except Fault (SymbolQueue × List Window) :=
  if zero : l = 0 then refuse .bufferLengthZero
  else if q.length < l ∧ 0x7fffffffffffffff < 8 * l then .error (.allocation l)
  else
    .ok (⟨l, remainder q.symbols l, by
      rw [length_remainder]
      exact Nat.mod_lt _ (Nat.pos_of_ne_zero zero)⟩, pieces q.symbols l (q.symbols.length / l))

instance : Buffering SymbolQueue where
  push := push
  resize := resize
  clear := clear

section

variable {symbols : List Sample} {l n : Nat}

theorem size_of_mem_pieces (fits : n * l ≤ symbols.length) {w : Window}
    (member : w ∈ pieces symbols l n) : w.size = l := by
  simp only [pieces, List.mem_map, List.mem_range] at member
  obtain ⟨i, earlier, rfl⟩ := member
  have within : (i + 1) * l ≤ n * l := Nat.mul_le_mul_right l earlier
  rw [Nat.add_mul, Nat.one_mul] at within
  simp only [List.size_toArray, List.length_take, List.length_drop]
  omega

theorem symbolsOf_pieces (symbols : List Sample) (l n : Nat) :
    symbolsOf (pieces symbols l n) = symbols.take (n * l) := by
  induction n with
  | zero => simp [pieces]
  | succ n ih =>
    have last : pieces symbols l (n + 1) =
        pieces symbols l n ++ [((symbols.drop (n * l)).take l).toArray] := by
      simp [pieces, List.range_succ]
    rw [last, symbolsOf, List.flatMap_append, Nat.add_mul, Nat.one_mul, List.take_add]
    rw [symbolsOf] at ih
    simp [ih]

theorem symbolsOf_pieces_remainder (symbols : List Sample) (l : Nat) :
    symbolsOf (pieces symbols l (symbols.length / l)) ++ remainder symbols l = symbols := by
  have cut : symbols.length - symbols.length % l = symbols.length / l * l := by
    have whole := Nat.div_add_mod' symbols.length l
    omega
  rw [symbolsOf_pieces, remainder, cut, List.take_append_drop]

end

end SymbolQueue

namespace SymbolBuffer

theorem exists_resize_eq_ok {b : SymbolBuffer} {l : Nat} (positive : l ≠ 0)
    (stored : ¬(b.length < l ∧ storageLimit < l)) :
    ∃ b' windows, b.resize l = .ok (b', windows) := by
  unfold resize
  rw [if_neg positive, if_neg stored]
  split
  · exact ⟨_, _, rfl⟩
  · exact ⟨_, _, rfl⟩

theorem resize_of_large {b : SymbolBuffer} (room : b.HasRoom) {l : Nat}
    (large : b.length < l ∧ storageLimit < l) : b.resize l = .error (.allocation l) := by
  have fewer : b.count < l := Nat.lt_trans room large.1
  rw [resize, if_neg (by omega), if_pos fewer, if_pos large]

end SymbolBuffer

/-- A buffer that keeps the symbols of its plain form. Nothing is said about the cells behind. -/
structure Holds (b : SymbolBuffer) (q : SymbolQueue) : Prop where
  length : b.length = q.length
  pending : b.pending.toList = q.symbols

namespace Holds

open SymbolQueue Buffering

variable {b : SymbolBuffer} {q : SymbolQueue}

theorem room (holds : Holds b q) : b.HasRoom := by
  have room := q.room
  rw [← holds.length, ← holds.pending, Array.length_toList] at room
  unfold SymbolBuffer.HasRoom
  unfold SymbolBuffer.length SymbolBuffer.pending at *
  rw [Array.size_extract] at room
  omega

theorem count (holds : Holds b q) : b.count = q.symbols.length := by
  rw [← SymbolBuffer.size_pending holds.room, ← holds.pending, Array.length_toList]

theorem of_room (room : b.HasRoom) : ∃ q, Holds b q := by
  have short : b.pending.toList.length < b.length := by
    rw [Array.length_toList, SymbolBuffer.size_pending room]
    exact room
  exact ⟨⟨b.length, b.pending.toList, short⟩, rfl, rfl⟩

theorem ofLength {l : Nat} (made : SymbolBuffer.ofLength l = .ok b) :
    ∃ positive, Holds b (SymbolQueue.ofLength l positive) := by
  have new := SymbolBuffer.ofLength_eq_ok made
  refine ⟨?_, new.2.1, by simp [SymbolBuffer.pending_eq_empty new.2.2, SymbolQueue.ofLength]⟩
  rw [← new.2.1]
  exact Nat.zero_lt_of_lt new.1

theorem clear (holds : Holds b q) : Holds b.clear q.clear :=
  ⟨holds.length, by simp [SymbolBuffer.pending_eq_empty, SymbolBuffer.clear, SymbolQueue.clear]⟩

theorem push (holds : Holds b q) (x : Sample) :
    (b.push x).2 = (q.push x).2 ∧ Holds (b.push x).1 (q.push x).1 := by
  have room := holds.room
  have length := SymbolBuffer.length_push room x
  have count := holds.count
  have pending := holds.pending
  rw [holds.length] at length
  cases handed : (b.push x).2 with
  | none =>
    have short : (q.symbols ++ [x]).length < q.length := by
      have room' := SymbolBuffer.hasRoom_push room x
      have pending' := congrArg Array.size (SymbolBuffer.pending_push room handed)
      rw [SymbolBuffer.size_pending room', Array.size_push, SymbolBuffer.size_pending room]
        at pending'
      unfold SymbolBuffer.HasRoom at room'
      rw [List.length_append, List.length_singleton]
      omega
    rw [SymbolQueue.push, dif_pos short]
    exact ⟨rfl, length, by simp [SymbolBuffer.pending_push room handed, pending]⟩
  | some w =>
    obtain ⟨rfl, full, empty⟩ := SymbolBuffer.push_eq_some room handed
    have long : ¬(q.symbols ++ [x]).length < q.length := by
      rw [Array.size_push, SymbolBuffer.size_pending room, holds.length] at full
      rw [List.length_append, List.length_singleton]
      omega
    rw [SymbolQueue.push, dif_neg long]
    refine ⟨?_, length, by simp [SymbolBuffer.pending_eq_empty empty, SymbolQueue.clear]⟩
    rw [← pending, ← Array.toList_push]

/-- Both refuse the same lengths. A buffer that accepts one hands out the pieces of its plain form,
since there is only one way to cut the symbols. -/
theorem resize (holds : Holds b q) (l : Nat) :
    (∃ fault, b.resize l = .error fault ∧ q.resize l = .error fault) ∨
    (∃ b' q' windows, b.resize l = .ok (b', windows) ∧ q.resize l = .ok (q', windows) ∧
      Holds b' q') := by
  by_cases zero : l = 0
  · refine .inl ⟨.configuration .bufferLengthZero, ?_, ?_⟩
    · rw [SymbolBuffer.resize, if_pos zero, refuse]
    · rw [SymbolQueue.resize, dif_pos zero, refuse]
  have limit : storageLimit < l ↔ 0x7fffffffffffffff < 8 * l := by
    unfold storageLimit
    omega
  by_cases large : b.length < l ∧ storageLimit < l
  · refine .inl ⟨.allocation l, SymbolBuffer.resize_of_large holds.room large, ?_⟩
    rw [holds.length, limit] at large
    rw [SymbolQueue.resize, dif_neg zero, if_pos large]
  · obtain ⟨b', windows, done⟩ := SymbolBuffer.exists_resize_eq_ok zero large
    obtain ⟨room', length', sizes, symbols⟩ := SymbolBuffer.resize_eq_ok holds.room done
    have short : b'.pending.toList.length < l := by
      rw [Array.length_toList, SymbolBuffer.size_pending room', ← length']
      exact room'
    have short' : (SymbolQueue.remainder q.symbols l).length < l := by
      rw [length_remainder]
      exact Nat.mod_lt _ (Nat.pos_of_ne_zero zero)
    have fits : q.symbols.length / l * l ≤ q.symbols.length := Nat.div_mul_le_self _ _
    rw [holds.pending] at symbols
    obtain ⟨rfl, rest⟩ := SymbolBuffer.windows_unique sizes
      (fun w member => size_of_mem_pieces fits member) short short'
      (symbols.trans (symbolsOf_pieces_remainder q.symbols l).symm)
    rw [holds.length, limit] at large
    refine .inr ⟨b', ⟨l, SymbolQueue.remainder q.symbols l, short'⟩, _, done, ?_, length', rest⟩
    rw [SymbolQueue.resize, dif_neg zero, if_neg large]

theorem perform (holds : Holds b q) (call : BufferCall) :
    (Buffering.perform b call).2 = (Buffering.perform q call).2 ∧
      Holds (Buffering.perform b call).1 (Buffering.perform q call).1 := by
  cases call with
  | push x =>
    have pushed := holds.push x
    refine ⟨?_, pushed.2⟩
    simp [Buffering.perform, Buffering.push, pushed.1]
  | resize l =>
    cases holds.resize l with
    | inl refused =>
      obtain ⟨fault, left, right⟩ := refused
      simp [Buffering.perform, Buffering.resize, left, right, holds]
    | inr done =>
      obtain ⟨b', q', windows, left, right, kept⟩ := done
      simp [Buffering.perform, Buffering.resize, left, right, kept]
  | clear => exact ⟨rfl, holds.clear⟩

theorem after (holds : Holds b q) (calls : List BufferCall) :
    Holds (Buffering.after b calls) (Buffering.after q calls) := by
  induction calls generalizing b q with
  | nil => exact holds
  | cons call calls ih => exact ih (holds.perform call).2

theorem answers (holds : Holds b q) (calls : List BufferCall) :
    Buffering.answers b calls = Buffering.answers q calls := by
  induction calls generalizing b q with
  | nil => rfl
  | cons call calls ih =>
    have step := holds.perform call
    simp only [Buffering.answers, step.1, ih step.2]

end Holds

namespace SymbolBuffer

structure Alike (b b' : SymbolBuffer) : Prop where
  room : b.HasRoom
  room' : b'.HasRoom
  length : b'.length = b.length
  pending : b'.pending = b.pending

namespace Alike

variable {b b' : SymbolBuffer} {q : SymbolQueue}

theorem symm (alike : b.Alike b') : b'.Alike b :=
  ⟨alike.room', alike.room, alike.length.symm, alike.pending.symm⟩

theorem of_holds (holds : Holds b q) (holds' : Holds b' q) : b.Alike b' := by
  refine ⟨holds.room, holds'.room, holds'.length.trans holds.length.symm, ?_⟩
  apply Array.toList_inj.mp
  rw [holds.pending, holds'.pending]

theorem exists_holds (alike : b.Alike b') : ∃ q, Holds b q ∧ Holds b' q := by
  obtain ⟨q, holds⟩ := Holds.of_room alike.room
  refine ⟨q, holds, alike.length.trans holds.length, ?_⟩
  rw [alike.pending, holds.pending]

theorem clear (alike : b.Alike b') : b.clear.Alike b'.clear := by
  obtain ⟨q, holds, holds'⟩ := alike.exists_holds
  exact of_holds holds.clear holds'.clear

theorem push (alike : b.Alike b') (x : Sample) :
    (b'.push x).2 = (b.push x).2 ∧ (b.push x).1.Alike (b'.push x).1 := by
  obtain ⟨q, holds, holds'⟩ := alike.exists_holds
  have pushed := holds.push x
  have pushed' := holds'.push x
  exact ⟨pushed'.1.trans pushed.1.symm, of_holds pushed.2 pushed'.2⟩

theorem resize (alike : b.Alike b') (l : Nat) :
    (∃ fault, b.resize l = .error fault ∧ b'.resize l = .error fault) ∨
    (∃ c c' windows, b.resize l = .ok (c, windows) ∧ b'.resize l = .ok (c', windows) ∧
      c.Alike c') := by
  obtain ⟨q, holds, holds'⟩ := alike.exists_holds
  obtain ⟨fault, left, plain⟩ | ⟨c, p, windows, left, plain, cut⟩ := holds.resize l
  · obtain ⟨fault', right, plain'⟩ | ⟨c', p', windows', right, plain', cut'⟩ := holds'.resize l
    · rw [plain] at plain'
      cases plain'
      exact .inl ⟨fault, left, right⟩
    · rw [plain] at plain'
      cases plain'
  · obtain ⟨fault', right, plain'⟩ | ⟨c', p', windows', right, plain', cut'⟩ := holds'.resize l
    · rw [plain] at plain'
      cases plain'
    · rw [plain] at plain'
      cases plain'
      exact .inr ⟨c, c', windows, left, right, of_holds cut cut'⟩

end Alike

end SymbolBuffer

open Buffering

/-- What can be seen of a buffer, at every point of its use, is what can be seen of its plain
form. -/
structure RefinesQueue (b₀ : SymbolBuffer) (q₀ : SymbolQueue) : Prop where
  state (calls : List BufferCall) :
    let b := after b₀ calls
    let q := after q₀ calls
    b.length = q.length ∧ b.pending.toList = q.symbols ∧ b.pending.size < b.length
  answers (calls : List BufferCall) : answers b₀ calls = answers q₀ calls
  /-- Two buffers of the same length with the same pending symbols cannot be told apart any more,
  whatever was done with them before. -/
  forgets {l : Nat} {b₁ : SymbolBuffer} (made : SymbolBuffer.ofLength l = .ok b₁)
    (before before' : List BufferCall) :
    let b := after b₀ before
    let b' := after b₁ before'
    b'.length = b.length → b'.pending = b.pending → ∀ calls,
      Buffering.answers b' calls = Buffering.answers b calls ∧
        (after b' calls).length = (after b calls).length ∧
        (after b' calls).pending = (after b calls).pending

theorem buffer_refines_queue {l : Nat} {b₀ : SymbolBuffer}
    (made : SymbolBuffer.ofLength l = .ok b₀) :
    ∃ positive, RefinesQueue b₀ (.ofLength l positive) := by
  obtain ⟨positive, start⟩ := Holds.ofLength made
  refine ⟨positive, ⟨?_, fun calls => start.answers calls, ?_⟩⟩
  · intro calls
    have holds := start.after calls
    refine ⟨holds.length, holds.pending, ?_⟩
    rw [SymbolBuffer.size_pending holds.room]
    exact holds.room
  · intro l b₁ made' before before' b b' length pending calls
    obtain ⟨_, start'⟩ := Holds.ofLength made'
    have alike : b.Alike b' :=
      ⟨(start.after before).room, (start'.after before').room, length, pending⟩
    obtain ⟨q, holds, holds'⟩ := alike.exists_holds
    have later := SymbolBuffer.Alike.of_holds (holds.after calls) (holds'.after calls)
    exact ⟨(holds'.answers calls).trans (holds.answers calls).symm, later.length, later.pending⟩

theorem buffer_refines_queue_four :
    ∃ b₀ positive, SymbolBuffer.ofLength 4 = .ok b₀ ∧ RefinesQueue b₀ (.ofLength 4 positive) ∧
      let calls := [.push (.real 1), .push (.real 2), .push (.real 3), .resize 0, .resize 2]
      (answers b₀ calls).map Except.toOption =
        [some [], some [], some [], none, some [#[.real 1, .real 2]]] ∧
      (after b₀ calls).pending = #[.real 3] := by
  have made : SymbolBuffer.ofLength 4 = .ok _ := rfl
  obtain ⟨positive, refines⟩ := buffer_refines_queue made
  exact ⟨_, positive, made, refines, by decide +kernel, by decide +kernel⟩

end FrameSync
