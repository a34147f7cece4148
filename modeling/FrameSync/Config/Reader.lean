import FrameSync.Config
import FrameSync.Json

/-!
Reading a configuration from JSON: an object that names the parameters, or an array that gives
them in order. What is left out has its default. A parameter must not be given twice; members of
other names are passed over.
-/

namespace FrameSync.Config

inductive Field where
  | shape | k | m | beta | branches | bufferLength
deriving DecidableEq

def Field.all : List Field :=
  [.shape, .k, .m, .beta, .branches, .bufferLength]

def Field.name : Field → String
  | .shape => "filter_type"
  | .k => "k"
  | .m => "m"
  | .beta => "beta"
  | .branches => "npfb"
  | .bufferLength => "buf_len"

def shapeNamed? : String → Option PulseShape
  | "rrc" => some .rootRaisedCosine
  | "rect" => some .rectangular
  | _ => none

/-- A pulse shape is its name, or an object whose only member has that name and no value. -/
def readShape? : Json → Option PulseShape
  | .string (some s) => shapeNamed? s
  | .object [(some s, .null)] => shapeNamed? s
  | _ => none

/-- A count is written without sign, point and exponent and fits in 64 bits. -/
def readCount? : Json → Option Nat
  | .number n =>
    if n.whole && !n.negative && n.digits < 0x10000000000000000 then some n.digits else none
  | _ => none

/-- Whether a number is whole and negative and its size fits in 64 bits, but the number itself
does not fit in a signed word of 64 bits. -/
def isBelowSigned64 (n : Numeral) : Bool :=
  n.whole && n.negative && 0x8000000000000000 < n.digits && n.digits < 0x10000000000000000

/-- The single nearest to the size of a number. A whole number below the signed words of 64 bits
is rounded to double precision first, any other number only once. -/
def nearestSingle (n : Numeral) : Float32 :=
  if isBelowSigned64 n then narrow n.digits.toUInt64.toFloat
  else OfScientific.ofScientific n.digits (n.power < 0) n.power.natAbs

def readSingle? : Json → Option Float32
  | .number n =>
    let size := nearestSingle n
    if size.isInf then none else some (if n.negative then -size else size)
  | _ => none

def set? (c : Config) (v : Json) : Field → Option Config
  | .shape => (readShape? v).map fun shape => { c with shape }
  | .k => (readCount? v).map fun k => { c with k }
  | .m => (readCount? v).map fun m => { c with m }
  | .beta => (readSingle? v).map fun beta => { c with beta }
  | .branches => (readCount? v).map fun branches => { c with branches }
  | .bufferLength => (readCount? v).map fun bufferLength => { c with bufferLength }

def setNamed? (c : Config) (given : List Field) : List (JsonText × Json) → Option Config
  | [] => some c
  | (none, _) :: _ => none
  | (some name, v) :: members =>
    match Field.all.find? (·.name = name) with
    | none => setNamed? c given members
    | some f =>
      if f ∈ given then none
      else (set? c v f).bind fun c => setNamed? c (f :: given) members

def setInOrder? (c : Config) : List Field → List Json → Option Config
  | _, [] => some c
  | [], _ :: _ => none
  | f :: fields, v :: values => (set? c v f).bind fun c => setInOrder? c fields values

def ofJson? : Json → Option Config
  | .object members => setNamed? default [] members
  | .array values => setInOrder? default Field.all values
  | _ => none

def parse? (text : String) : Option Config :=
  (Json.parse? text).bind ofJson?

end FrameSync.Config
