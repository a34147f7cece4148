import FrameSync.Sample
import FrameSync.Pulse

/-!
A bank of matched filters for fractional delays. The taps of one prototype are dealt out to
the branches in turn, so branch `b` of `n` sees the input `b / n` of a sample later than branch
zero. All branches read one history of the input, kept as a ring.
-/

namespace FrameSync

structure FilterBank where
  /-- The taps of each branch, all branches equally long. -/
  branches : Array (Array Float32)
  /-- How many taps a branch has and how many samples the ring holds. -/
  span : Nat
  ring : Array Sample
  /-- Where the next sample goes, which is also where the oldest one stands. -/
  next : Nat
  scale : Float32

namespace FilterBank

def deal (n : Nat) : List Float32 → Nat → Array (Array Float32) → Array (Array Float32)
  | [], _, branches => branches
  | c :: taps, i, branches =>
    deal n taps (i + 1) (branches.modify (i % n) (·.setIfInBounds (i / n) c))

/-- A bank of `n` branches; the last taps are filled up with zeros. -/
def ofPrototype (prototype : Array Float32) (n : Nat) : Except Fault FilterBank :=
  if n = 0 then refuse .noPhases
  else if prototype.isEmpty then refuse .emptyPrototype
  else
    let span := (prototype.size + n - 1) / n
    .ok {
      branches := deal n prototype.toList 0 (Array.replicate n (Array.replicate span 0))
      span
      ring := Array.replicate span 0
      next := 0
      scale := 1 }

/-- A bank matched to a pulse at `k` samples a symbol: the prototype is the pulse at `k * n`. -/
def matched (shape : PulseShape) (n k m : Nat) (beta : Float32) : Except Fault FilterBank := do
  if n = 0 then refuse .noPhases
  else
    let prototype ← Pulse.design shape (k * n) m beta
    ofPrototype prototype n

def branchCount (b : FilterBank) : Nat := b.branches.size

def setScale (b : FilterBank) (scale : Float32) : FilterBank := { b with scale }

def push (b : FilterBank) (x : Sample) : FilterBank :=
  { b with ring := b.ring.setIfInBounds b.next x, next := (b.next + 1) % b.span }

def past (b : FilterBank) (age : Nat) : Sample :=
  b.ring.getD ((b.next + b.span - 1 - age) % b.span) 0

def weightedSum (b : FilterBank) : List Float32 → Nat → Sample → Sample
  | [], _, sum => sum
  | c :: taps, age, sum => b.weightedSum taps (age + 1) (sum + (b.past age).scale c)

/-- The output of a branch; beyond the last branch, that of the last one. -/
def output (b : FilterBank) (index : Nat) : Sample :=
  let taps := b.branches.getD (min index (b.branchCount - 1)) #[]
  (b.weightedSum taps.toList 0 0).scale b.scale

def reset (b : FilterBank) : FilterBank :=
  { b with ring := Array.replicate b.span 0, next := 0 }

end FilterBank

end FrameSync
