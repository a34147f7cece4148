import FrameSync.Numeric.Conversion

/-!
Decimal text of a single: the fewest digits that read back as the same number, and a fixed
count of places. Both work on exact fractions and neither uses an exponent.
-/

namespace FrameSync

def tenTo (n : Nat) : Nat := Nat.pow 10 n

structure Decimal where
  digits : Nat
  power : Int
deriving DecidableEq, Repr

/-- The values that round to the single `m * 2 ^ e`, in units of a quarter of the distance to
its upper neighbour. The ends belong to it when the mantissa is even. -/
structure RoundingInterval where
  low : Nat
  mid : Nat
  high : Nat
  closed : Bool
deriving DecidableEq, Repr

/-- The lower neighbour of a power of two is only half as far away as the upper one, except
among the smallest numbers, which are evenly spaced. -/
def roundingInterval (m : Nat) (e : Int) : RoundingInterval where
  low := if m = 0x800000 ∧ -149 < e then 4 * m - 1 else 4 * m - 2
  mid := 4 * m
  high := 4 * m + 2
  closed := m % 2 = 0

/-- The multiple of `10 ^ p` nearest to the middle of an interval in units of `2 ^ q`, if one
lies in the interval; of two as near the upper one. -/
def RoundingInterval.onGrid? (v : RoundingInterval) (q p : Int) : Option Nat :=
  let scale := tenTo (-p).toNat <<< q.toNat
  let step := tenTo p.toNat <<< (-q).toNat
  let inside (n : Nat) : Bool :=
    if v.closed then v.low * scale ≤ n * step ∧ n * step ≤ v.high * scale
    else v.low * scale < n * step ∧ n * step < v.high * scale
  let below := v.mid * scale / step
  let nearAbove := step ≤ 2 * (v.mid * scale - below * step)
  if inside (below + 1) && (nearAbove || !inside below) then some (below + 1)
  else if inside below then some below
  else none

def RoundingInterval.coarsest? (v : RoundingInterval) (q : Int) : Nat → Int → Option Decimal
  | 0, _ => none
  | tries + 1, p =>
    match v.onGrid? q p with
    | some n => some ⟨n, p⟩
    | none => v.coarsest? q tries (p - 1)

/-- The decimal with the fewest digits among those that round to `m * 2 ^ e`, and the nearest
of these. No single is above `10 ^ 39` and the finest interval holds a multiple of
`10 ^ (-45)`. -/
def shortestDecimal (m : Nat) (e : Int) : Decimal :=
  ((roundingInterval m e).coarsest? (e - 2) 84 38).getD ⟨0, 0⟩

def fixedDecimal (places m : Nat) (e : Int) : Decimal :=
  ⟨roundedQuotient ((m * tenTo places) <<< e.toNat) (1 <<< (-e).toNat), -places⟩

def Decimal.text (d : Decimal) : String :=
  let whole := toString (d.digits * tenTo d.power.toNat)
  match (-d.power).toNat with
  | 0 => whole
  | places =>
    let padded := (List.replicate (places + 1 - whole.length) '0') ++ whole.toList
    let point := padded.length - places
    String.ofList (padded.take point ++ '.' :: padded.drop point)

def numberText (zero : String) (decimal : Nat → Int → Decimal) (x : Float32) : String :=
  let sign := if isNegative x then "-" else ""
  match x.toModel.unpack with
  | .notANumber => "NaN"
  | .infinity _ => sign ++ "inf"
  | .zero _ => sign ++ zero
  | .finite _ m e _ => sign ++ (decimal m e).text

def shortestText (x : Float32) : String :=
  numberText "0" shortestDecimal x

def thousandthsText (x : Float32) : String :=
  numberText "0.000" (fixedDecimal 3) x

end FrameSync
