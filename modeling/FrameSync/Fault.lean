import FrameSync.Numeric.Decimal

/-!
What can go wrong: a parameter that makes no sense, or storage that cannot be had. Each cause
carries the values its text names.
-/

namespace FrameSync

inductive Refusal where
  | emptySequence
  | samplesPerSymbolTooFew (k : Nat)
  | samplesPerSymbolZero
  | semiLengthTooShort
  | semiLengthZero
  | excessBandwidth (beta : Float32)
  | noBranches
  | noPhases
  | emptyPrototype
  | branchCount (found expected : Nat)
  | bufferLengthZero
  | templateTooShort
  | templateSilent
  | threshold (value : Float32)
  | searchRange (value : Float32)
  /-- A reason in the words of a caller's own component. -/
  | other (text : String)
deriving DecidableEq

def Refusal.message : Refusal → String
  | emptySequence => "sequence length cannot be zero"
  | samplesPerSymbolTooFew k => "samples per symbol (" ++ toString k ++ ") must be at least 2"
  | samplesPerSymbolZero => "samples per symbol must be greater than 0"
  | semiLengthTooShort => "filter semi-length must be at least 1"
  | semiLengthZero => "filter semi-length must be greater than 0"
  | excessBandwidth beta =>
    "excess bandwidth factor (" ++ shortestText beta ++ ") must be in (0, 1]"
  | noBranches => "number of filter bank branches must be greater than 0"
  | noPhases => "number of filter phases must be greater than 0"
  | emptyPrototype => "prototype filter cannot be empty"
  | branchCount found expected =>
    "filter bank has " ++ toString found ++ " branches, expected " ++ toString expected
  | bufferLengthZero => "buffer length must be greater than 0"
  | templateTooShort => "detector template needs at least 2 samples"
  | templateSilent => "detector template has no energy"
  | threshold value => "threshold (" ++ shortestText value ++ ") must be in (0, 1]"
  | searchRange value =>
    "carrier offset search range (" ++ shortestText value ++ ") must be in [0, 1]"
  | other text => text

inductive Fault where
  | configuration (why : Refusal)
  | allocation (samples : Nat)
deriving DecidableEq

def Fault.message : Fault → String
  | configuration why => "Configuration error: " ++ why.message
  | allocation samples => "Could not allocate " ++ toString samples ++ " samples"

def refuse {α : Type} (why : Refusal) : Except Fault α :=
  .error (.configuration why)

end FrameSync
