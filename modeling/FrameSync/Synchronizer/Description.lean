import FrameSync.Synchronizer.Basic

/-!
One line of text about a synchronizer.
-/

namespace FrameSync

def PulseShape.label : PulseShape → String
  | .rootRaisedCosine => "Rrc"
  | .rectangular => "Rect"

def Mode.label : Mode → String
  | .searching => "detect"
  | .tracking _ => "sync"

def Synchronizer.description {C D M F : Type} (s : Synchronizer C D M F) : String :=
  "<qdsync seq_len=" ++ toString s.sequenceLength
    ++ " ftype=" ++ s.config.shape.label
    ++ " k=" ++ toString s.config.k
    ++ " m=" ++ toString s.config.m
    ++ " beta=" ++ thousandthsText s.config.beta
    ++ " npfb=" ++ toString s.config.branches
    ++ " buf_len=" ++ toString s.bufferLength
    ++ " state=" ++ s.mode.label ++ ">"

end FrameSync
