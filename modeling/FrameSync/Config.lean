import FrameSync.Pulse

/-!
The parameters of a synchronizer. The pulse must be the one the transmitter uses.
-/

namespace FrameSync

def defaultBranches : Nat := 256

def defaultBufferLength : Nat := 64

structure Config where
  shape : PulseShape := .rootRaisedCosine
  /-- Samples per symbol. -/
  k : Nat := 2
  /-- The pulse's span to either side of its centre, in symbols. -/
  m : Nat := 7
  beta : Float32 := 0.3
  branches : Nat := defaultBranches
  bufferLength : Nat := defaultBufferLength
deriving DecidableEq

namespace Config

instance : Inhabited Config := ⟨{}⟩

def validate (c : Config) : Except Fault Unit :=
  if c.k < 2 then refuse (.samplesPerSymbolTooFew c.k)
  else if c.m < 1 then refuse .semiLengthTooShort
  else if !isBandwidth c.beta then refuse (.excessBandwidth c.beta)
  else if c.branches = 0 then refuse .noBranches
  else if c.bufferLength = 0 then refuse .bufferLengthZero
  else .ok ()

end Config

end FrameSync
