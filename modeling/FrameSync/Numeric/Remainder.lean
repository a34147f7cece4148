import FrameSync.Numeric.Conversion

/-!
The exact remainder of a division of doubles, and angles brought into one turn. The
remainder of two doubles is itself a double, so no rounding takes place in it.
-/

namespace FrameSync

open Float.Model (Format UnpackedFloat)

/-- What is left of `m * 2 ^ e` after taking away `n * 2 ^ f` as often as it fits, in units of
the finer of the two grids. -/
def remainderNat (m : Nat) (e : Int) (n : Nat) (f : Int) : Nat :=
  (m <<< (e - min e f).toNat) % (n <<< (f - min e f).toNat)

/-- The remainder of `x / y` with the quotient rounded towards zero: it has the sign of `x`,
also where it is zero, and is smaller than `y` in size. -/
def remainder (x y : Float) : Float :=
  .ofModel <| .pack <|
    match x.toModel.unpack, y.toModel.unpack with
    | .notANumber, _ | _, .notANumber | .infinity _, _ | _, .zero _ => .notANumber
    | .zero s, _ => .zero s
    | .finite s m e h, .infinity _ => .finite s m e h
    | .finite s m e _, .finite _ n f _ =>
      match remainderNat m e n f with
      | 0 => .zero s
      | r => UnpackedFloat.round .binary64 s r (min e f)

def fullTurn : Float :=
  6.283185307179586

/-- The angle in `[0, fullTurn)` that differs from `phase` by whole turns. A negative angle so
small that adding a turn rounds to the turn itself becomes zero. -/
def wrapAngle (phase : Float) : Float :=
  let r := remainder phase fullTurn
  let r := if r < 0 then r + fullTurn else r
  if fullTurn ≤ r then 0 else r

end FrameSync
