/-!
Conversions between single precision, double precision and integers. Each one rounds at most
once, so its value is the exact one wherever the target can hold it.
-/

namespace FrameSync

open Float.Model (UnpackedFloat)

/-- The quotient rounded to nearest, ties to even. -/
def roundedQuotient (num den : Nat) : Nat :=
  let q := num / den
  let r := num % den
  if 2 * r < den ∨ 2 * r = den ∧ q % 2 = 0 then q else q + 1

/-- Whether the sign bit is set, for a negative zero too. -/
def isNegative (x : Float32) : Bool :=
  x.toBits ≥ 0x80000000

/-- The bits of the double equal to a positive single with the given exponent field and
fraction. The exponent moves to the other bias; among the smallest numbers, whose exponent field
is zero, the leading bit of the fraction becomes implicit. -/
def widenedBits (exponent fraction : Nat) : Nat :=
  if exponent = 255 then (2047 <<< 52) + (fraction <<< 29)
  else if exponent ≠ 0 then ((exponent + 896) <<< 52) + (fraction <<< 29)
  else if fraction = 0 then 0
  else ((fraction.log2 + 873) <<< 52) + (fraction <<< (52 - fraction.log2))

def widen (x : Float32) : Float :=
  let size := (x.toBits &&& 0x7fffffff).toNat
  let bits := widenedBits (size / 0x800000) (size % 0x800000)
  .ofBits (x.toBits.toUInt64 >>> 31 <<< 63 ||| bits.toUInt64)

/-- The bits of the single nearest to a positive double with the given exponent field and
fraction. Rounding up to the next power of two carries into the exponent by itself, and what is
too large is cut off at infinity. -/
def narrowedBits (exponent fraction : Nat) : Nat :=
  let mantissa := fraction + (1 <<< 52)
  if exponent < 897 then roundedQuotient mantissa (1 <<< (926 - exponent))
  else min (((exponent - 897) <<< 23) + roundedQuotient mantissa (1 <<< 29)) (255 <<< 23)

def narrow (x : Float) : Float32 :=
  if x.isNaN then 0 / 0
  else
    let size := (x.toBits &&& 0x7fffffffffffffff).toNat
    let bits := narrowedBits (size / 0x10000000000000) (size % 0x10000000000000)
    .ofBits ((x.toBits >>> 63 <<< 31).toUInt32 ||| bits.toUInt32)

def ofCount (n : Nat) : Float32 :=
  n.toUInt64.toFloat32

def ofInteger (i : Int) : Float32 :=
  .ofModel (.ofInt i)

/-- The integer nearest to `m * 2 ^ e`, a half going up. -/
def nearestNat (m : Nat) (e : Int) : Nat :=
  if 0 ≤ e then m <<< e.toNat
  else (2 * m + (1 <<< (-e).toNat)) >>> ((-e).toNat + 1)

def saturate32 : UnpackedFloat.Sign → Nat → Int
  | .positive, size => (min size 0x7fffffff : Nat)
  | .negative, size => -(min size 0x80000000 : Nat)

/-- The nearest integer of 32 bits: halves go away from zero, what lies beyond the range to
its end, and what is not a number to zero. -/
def nearestInt32 (x : Float32) : Int :=
  match x.toModel.unpack with
  | .notANumber | .zero _ => 0
  | .infinity s => saturate32 s 0x80000000
  | .finite s m e _ => saturate32 s (nearestNat m e)

def wholePart (x : Float) : Int :=
  if x < 0 then -((-x).toUInt64.toNat : Int) else x.toUInt64.toNat

/-- The low 32 bits of a count, read with a sign. -/
def signed32 (n : Nat) : Int :=
  let low := n % 0x100000000
  if low < 0x80000000 then low else (low : Int) - 0x100000000

def unsigned64 : Int → Nat
  | .ofNat n => n
  | .negSucc n => 0x10000000000000000 - (n + 1)

end FrameSync
