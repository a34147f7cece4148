import FrameSync.Sample

/-!
Linear modulation: every symbol of a sequence sends out one copy of a pulse, `k` samples after
the one before, and the copies add up.
-/

namespace FrameSync

/-- Adds a copy of the pulse, weighted by a symbol, to a signal from position `start` on. What
would lie past the end of the signal is lost. -/
def placePulse (symbol : Sample) : List Float32 → Nat → Array Sample → Array Sample
  | [], _, signal => signal
  | c :: pulse, start, signal =>
    if start < signal.size then
      placePulse symbol pulse (start + 1) (signal.modify start (· + symbol.scale c))
    else signal

def placeSymbols (pulse : List Float32) (k : Nat) :
    List Sample → Nat → Array Sample → Array Sample
  | [], _, signal => signal
  | symbol :: symbols, start, signal =>
    if start < signal.size then
      placeSymbols pulse k symbols (start + k) (placePulse symbol pulse start signal)
    else signal

def modulate (symbols : List Sample) (pulse : List Float32) (k len : Nat) : Array Sample :=
  placeSymbols pulse k symbols 0 (Array.replicate len 0)

end FrameSync
