import FrameSync.Numeric.Conversion

/-!
The arc tangent and the angle of a point in the plane, in single precision throughout. The
arc tangent is taken near one of four reference angles and a polynomial covers the rest.
-/

namespace FrameSync

/-- A reference angle as the sum of a leading part and a correction. -/
structure Reference where
  lead : Float32
  correction : Float32

/-- `x` times a polynomial: how far the arc tangent of `x` falls short of `x` near zero. -/
def arcTangentDefect (x : Float32) : Float32 :=
  let z := x * x
  let w := z * z
  let odd := z * (0.33333334 + w * (0.14285715 + w * (0.09090887
    + w * (0.06661073 + w * (0.04976878 + w * 0.01628582)))))
  let even := w * (-0.2 + w * (-0.111111104 + w * (-0.07691876
    + w * (-0.058335703 + w * -0.03653157))))
  x * (odd + even)

def Reference.plus (r : Reference) (x : Float32) : Float32 :=
  r.lead - (arcTangentDefect x - r.correction - x)

def arcTangent (x : Float32) : Float32 :=
  if 33554432 ≤ x then 1.5707963 + 7.5497894e-08
  else if x < 1.8626451e-09 then x
  else if x < 0.4375 then x - arcTangentDefect x
  else if x < 0.6875 then
    Reference.plus ⟨0.4636476, 5.0121582e-09⟩ ((2 * x - 1) / (2 + x))
  else if x < 1.1875 then
    Reference.plus ⟨0.7853981, 3.7748947e-08⟩ ((x - 1) / (x + 1))
  else if x < 2.4375 then
    Reference.plus ⟨0.9827937, 3.4473217e-08⟩ ((x - 1.5) / (1 + 1.5 * x))
  else
    Reference.plus ⟨1.5707963, 7.5497894e-08⟩ (-1 / x)

def halfTurn : Float32 :=
  3.1415927

def angleSize (y x : Float32) : Float32 :=
  if y == 0 then
    if isNegative x then halfTurn else 0
  else if y.isInf && x.isInf then
    if isNegative x then 3 * 0.7853982 else 0.7853982
  else if y.isInf || x == 0 then 1.5707964
  else
    let a := arcTangent (y / x).abs
    if isNegative x then halfTurn - (a + 8.742278e-08) else a

def angle (y x : Float32) : Float32 :=
  if y.isNaN || x.isNaN then 0 / 0
  else if isNegative y then -angleSize y x
  else angleSize y x

end FrameSync
