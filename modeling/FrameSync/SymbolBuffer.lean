import FrameSync.Sample
import FrameSync.Fault

/-!
The buffer between the decimator and the consumer. Symbols gather until there are as many as
the window is long; then they are handed out together. A shorter window may be asked for at any
time: what is gathered by then is handed out in windows of the new length, in order.
-/

namespace FrameSync

/-- Storage as long as the window, of which the first `count` cells hold symbols. What the
other cells hold is left over from earlier windows. -/
structure SymbolBuffer where
  storage : Array Sample
  count : Nat

abbrev Window := Array Sample

/-- The number of samples, of eight bytes each, that can be stored together. More are always refused
and fewer never: that memory runs out below this limit is not described. -/
def storageLimit : Nat := 0x7fffffffffffffff / 8

namespace SymbolBuffer

def ofLength (length : Nat) : Except Fault SymbolBuffer :=
  if length = 0 then refuse .bufferLengthZero
  else if storageLimit < length then .error (.allocation length)
  else .ok ⟨Array.replicate length 0, 0⟩

def length (b : SymbolBuffer) : Nat := b.storage.size

def pending (b : SymbolBuffer) : Array Sample := b.storage.extract 0 b.count

def clear (b : SymbolBuffer) : SymbolBuffer := { b with count := 0 }

def push (b : SymbolBuffer) (x : Sample) : SymbolBuffer × Option Window :=
  let storage := b.storage.setIfInBounds b.count x
  if b.count + 1 = storage.size then (⟨storage, 0⟩, some storage)
  else (⟨storage, b.count + 1⟩, none)

/-- Cuts windows of length `l` off the `count` symbols from position `start` on, as long as
there are enough. Left are the windows and the place of the rest. -/
def flush (storage : Array Sample) (l start count : Nat) : List Window × Nat × Nat :=
  if _h : 0 < l ∧ l ≤ count then
    let (windows, rest) := flush storage l (start + l) (count - l)
    (storage.extract start (start + l) :: windows, rest)
  else ([], start, count)
termination_by count
decreasing_by omega

/-- Changes the window length. Fewer symbols than that stay where they are; of more, full
windows are handed out and the rest moves to the front. -/
def resize (b : SymbolBuffer) (l : Nat) : Except Fault (SymbolBuffer × List Window) :=
  if l = 0 then refuse .bufferLengthZero
  else if b.count < l then
    if b.length < l ∧ storageLimit < l then .error (.allocation l)
    else .ok (⟨(b.storage.take l).rightpad l 0, b.count⟩, [])
  else
    let (windows, start, count) := flush b.storage l 0 b.count
    let rest := b.storage.extract start (start + count)
    .ok (⟨rest ++ b.storage.extract count l, count⟩, windows)

end SymbolBuffer

end FrameSync
