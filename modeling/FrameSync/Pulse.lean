import FrameSync.Fault
import FrameSync.Numeric.Circular
import FrameSync.Numeric.Angle

/-!
Square-root Nyquist pulses. A pulse spans `m` symbol periods to either side of its centre, at
`k` samples a symbol, so it has `2 * k * m + 1` taps. It is not normalised: its energy is close
to `k`.
-/

namespace FrameSync

inductive PulseShape where
  | rootRaisedCosine
  /-- One symbol wide, with no transition band. -/
  | rectangular
deriving DecidableEq, Repr, Inhabited

/-- Whether the excess bandwidth lies in `(0, 1]`; what is not a number does not. -/
def isBandwidth (beta : Float32) : Bool :=
  0 < beta && beta ≤ 1

namespace Pulse

def symbolTime (k m n : Nat) : Float32 :=
  ofCount n / ofCount k - ofCount m

def cosineCentre (beta : Float32) : Float32 :=
  1 - beta + 4 * beta / halfTurn

/-- The root-raised cosine where the general expression divides zero by zero. -/
def cosineSingular (beta : Float32) : Float32 :=
  let arg := 0.25 * halfTurn / beta
  let a := (1 + 2 / halfTurn) * sine arg
  let b := (1 - 2 / halfTurn) * cosine arg
  beta / (2 : Float32).sqrt * (a + b)

/-- The root-raised cosine at time `z`, where `gap` is `1 - (4 * beta * z) ^ 2`. -/
def cosineGeneral (beta z gap : Float32) : Float32 :=
  let a := cosine ((1 + beta) * halfTurn * z)
  let b := sine ((1 - beta) * halfTurn * z)
  let c := 1 / (4 * beta * z)
  4 * beta / (halfTurn * gap) * (a + b * c)

def rootRaisedCosine (beta z : Float32) : Float32 :=
  if z.abs < 1e-5 then cosineCentre beta
  else
    let gap := 1 - 16 * beta * beta * z * z
    if gap * gap < 1e-5 then cosineSingular beta
    else cosineGeneral beta z gap

/-- Tap `n` of the rectangular pulse: one from half a symbol before the centre up to, but not
including, half a symbol after it. -/
def rectangular (k m n : Nat) : Float32 :=
  let d := ofCount n - ofCount (k * m)
  let half := ofCount k / 2
  if -half ≤ d && d < half then 1 else 0

def tap (shape : PulseShape) (k m : Nat) (beta : Float32) (n : Nat) : Float32 :=
  match shape with
  | .rootRaisedCosine => rootRaisedCosine beta (symbolTime k m n)
  | .rectangular => rectangular k m n

def taps (shape : PulseShape) (k m : Nat) (beta : Float32) : Array Float32 :=
  Array.ofFn fun n : Fin (2 * k * m + 1) => tap shape k m beta n

def design (shape : PulseShape) (k m : Nat) (beta : Float32) : Except Fault (Array Float32) :=
  if k = 0 then refuse .samplesPerSymbolZero
  else if m = 0 then refuse .semiLengthZero
  else if !isBandwidth beta then refuse (.excessBandwidth beta)
  else .ok (taps shape k m beta)

section

variable {shape : PulseShape} {k m : Nat} {beta : Float32}

@[simp] theorem size_taps : (taps shape k m beta).size = 2 * k * m + 1 := Array.size_ofFn

theorem getElem?_taps (n : Nat) :
    (taps shape k m beta)[n]? =
      if n < 2 * k * m + 1 then some (tap shape k m beta n) else none := by
  simp [taps, Array.getElem?_ofFn]

theorem design_eq_ok {pulse : Array Float32} :
    design shape k m beta = .ok pulse ↔
      0 < k ∧ 0 < m ∧ isBandwidth beta = true ∧ pulse = taps shape k m beta := by
  unfold design refuse
  by_cases rate : k = 0
  · simp [rate]
  by_cases length : m = 0
  · simp [rate, length]
  cases band : isBandwidth beta with
  | false => simp [rate, length]
  | true => simp [rate, length, Nat.pos_of_ne_zero rate, Nat.pos_of_ne_zero length, eq_comm]

end

end Pulse

end FrameSync
