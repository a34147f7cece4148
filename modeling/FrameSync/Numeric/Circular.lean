import FrameSync.Numeric.Conversion

/-!
Sine and cosine of a single. An angle is split into quarter turns and a rest of at most an
eighth of a turn; there a short polynomial in double precision is accurate enough for one
final rounding.
-/

namespace FrameSync

def sinePolynomial (x : Float) : Float :=
  let x2 := x * x
  let x3 := x * x2
  let high := 0.008332178146138854 + x2 * -0.00019517298981385725
  let low := x + x3 * -0.16666654943701084
  low + x3 * x2 * high

def cosinePolynomial (x : Float) : Float :=
  let x2 := x * x
  let x4 := x2 * x2
  let high := -0.001388676379437604 + x2 * 2.4390450703564542e-05
  let low := 1 + x2 * -0.49999999725108224
  low + x4 * 0.041666623324344516 + x4 * x2 * high

/-- An angle as a number of quarter turns and the rest in radians. -/
structure SplitAngle where
  quarters : Int
  rest : Float

def SplitAngle.sine (a : SplitAngle) : Float :=
  match a.quarters % 4 with
  | 0 => sinePolynomial a.rest
  | 1 => cosinePolynomial a.rest
  | 2 => -sinePolynomial a.rest
  | _ => -cosinePolynomial a.rest

def SplitAngle.quarterOn (a : SplitAngle) : SplitAngle :=
  { a with quarters := a.quarters + 1 }

def SplitAngle.negate (a : SplitAngle) : SplitAngle :=
  ⟨-a.quarters, -a.rest⟩

/-- Splits an angle of less than twenty turns. A quarter turn is subtracted in two parts: the
product of the count and the leading part is exact, so only the last step rounds. -/
def splitSmall (x : Float) : SplitAngle :=
  let quarters := (wholePart (x * 10680707.430881744) + 0x800000) / 0x1000000
  let count := Float.ofInt quarters
  ⟨quarters, x - count * 1.5707963267948912 - count * 5.329070518200751e-15⟩

/-- The first 192 binary places of two over pi. -/
def twoOverPi : Nat :=
  0xA2F9836E4E441529FC2757D1F534DDC0DB6295993C439041

/-- Splits the positive angle `m * 2 ^ e`, of at least twenty turns. Of its product with two
over pi the places that make whole turns are left out and 62 places after the point are
kept. -/
def splitLarge (m : Nat) (e : Int) : SplitAngle :=
  let scale := (e + 150).toNat
  let places := twoOverPi >>> (8 * (31 - scale / 8)) % (1 <<< 96)
  let turns := ((m <<< (scale % 8)) * places) >>> 32 % (1 <<< 64)
  let quarters := (turns + (1 <<< 61)) >>> 62
  let rest : Int := turns - (quarters <<< 62 : Nat)
  ⟨quarters, Float.ofInt rest * 3.4061215800865545e-19⟩

def splitAngle? (x : Float32) : Option SplitAngle :=
  if x.abs < 120 then some (splitSmall (widen x))
  else match x.toModel.unpack with
    | .finite .positive m e _ => some (splitLarge m e)
    | .finite .negative m e _ => some (splitLarge m e).negate
    | _ => none

def notANumber : Float32 :=
  0 / 0

def sine (x : Float32) : Float32 :=
  if x.abs < 0.000244140625 then x
  else match splitAngle? x with
    | some a => narrow a.sine
    | none => notANumber

def cosine (x : Float32) : Float32 :=
  match splitAngle? x with
  | some a => narrow a.quarterOn.sine
  | none => notANumber

end FrameSync
