import FrameSync.Config
import FrameSync.Stage
import FrameSync.SymbolBuffer

/-!
The synchronizer: a detector searches for the preamble; once it is found, the mixer and the
filter bank are set from the estimates, and every sample is mixed down, filtered and decimated
to one symbol per `k` samples. Symbols reach the consumer in windows.
-/

namespace FrameSync

inductive Action where
  | proceed
  | reset
deriving DecidableEq, Repr, Inhabited

abbrev Consumer (C : Type) := Window → C → C × Action

structure Tracking where
  /-- Counts samples up to the next symbol. -/
  timer : Int
  branch : Nat
  /-- Symbols since the detection, with those that are dropped. -/
  symbols : Nat
  /-- The carrier frequency and phase that the mixer started from. -/
  frequency : Float32
  phase : Float32
deriving DecidableEq

def maxSymbols : Nat := 0xffffffff

/-- Counts one sample at `k` samples a symbol, and says whether a symbol is due at it. The counter
is not reduced to a signed word of 32 bits; for `k` from two up to `2 ^ 31 - 1` it never leaves
one. -/
def Tracking.tick (t : Tracking) (k : Int) : Tracking × Bool :=
  let timer := t.timer + 1
  if timer < k - 1 then ({ t with timer }, false)
  else ({ t with timer := timer - k, symbols := min (t.symbols + 1) maxSymbols }, true)

inductive Mode where
  | searching
  | tracking (t : Tracking)
deriving DecidableEq

structure Synchronizer (C D M F : Type) where
  config : Config
  /-- The length of the preamble in symbols. -/
  sequenceLength : Nat
  detector : D
  mixer : M
  bank : F
  mode : Mode
  buffer : SymbolBuffer
  /-- Where the detector's window is kept until it is run through the synchronizer again. -/
  replay : Array Sample
  /-- Without a consumer, windows are dropped. -/
  consumer : Option (Consumer C)
  context : C

abbrev Receiver (C : Type) := Synchronizer C Detector Oscillator FilterBank

namespace Synchronizer

variable {C D M F : Type}

def reset [DetectorStage D] [BankStage F] (s : Synchronizer C D M F) : Synchronizer C D M F :=
  { s with
    detector := DetectorStage.reset s.detector
    mode := .searching
    buffer := s.buffer.clear
    bank := BankStage.reset s.bank }

def ofStages [DetectorStage D] [BankStage F] (sequenceLength : Nat) (config : Config)
    (detector : D) (mixer : M) (bank : F) (consumer : Option (Consumer C)) (context : C) :
    Except Fault (Synchronizer C D M F) := do
  if sequenceLength = 0 then refuse .emptySequence
  else
    config.validate
    let found := BankStage.branchCount bank
    if found ≠ config.branches then refuse (.branchCount found config.branches)
    else
      let buffer ← SymbolBuffer.ofLength config.bufferLength
      return reset
        { config, sequenceLength, detector, mixer, bank, mode := .searching, buffer,
          replay := #[], consumer, context }

def ofSequence (symbols : List Sample) (config : Config) (consumer : Option (Consumer C))
    (context : C) : Except Fault (Receiver C) := do
  if symbols.isEmpty then refuse .emptySequence
  else
    config.validate
    let detector ← Detector.ofSequence symbols config.shape config.k config.m config.beta
    let bank ← FilterBank.matched config.shape config.branches config.k config.m config.beta
    ofStages symbols.length config detector default bank consumer context

def consume (s : Synchronizer C D M F) (w : Window) : Synchronizer C D M F × Action :=
  match s.consumer with
  | none => (s, .proceed)
  | some consumer =>
    let (context, action) := consumer w s.context
    ({ s with context }, action)

def deliver [DetectorStage D] [BankStage F] (s : Synchronizer C D M F) (y : Sample) :
    Synchronizer C D M F :=
  let (buffer, window) := s.buffer.push y
  let s := { s with buffer }
  match window with
  | none => s
  | some w =>
    match s.consume w with
    | (s, .proceed) => s
    | (s, .reset) => s.reset

/-- How many symbols a frame begins with in which the matched filter is still filling up. The
product is not reduced to a word of 32 bits; it fits in one for `m` below `2 ^ 31`. -/
def rampUp (c : Config) : Nat := 2 * (c.m % 0x100000000)

/-- Processes one sample of the frame being tracked. Where a symbol is due, the output of the
filter is one, unless the filter is still filling up. -/
def track [DetectorStage D] [MixerStage M] [BankStage F] (s : Synchronizer C D M F)
    (t : Tracking) (x : Sample) : Synchronizer C D M F :=
  let bank := BankStage.push s.bank (MixerStage.mixDown s.mixer x)
  let (t, due) := t.tick (signed32 s.config.k)
  let s := { s with mixer := MixerStage.step s.mixer, bank, mode := .tracking t }
  if due && rampUp s.config < t.symbols then s.deliver (BankStage.output bank t.branch) else s

/-- Where the timing offset places the symbols: the filter branch, and the first value of the
sample counter. An offset to the left of zero takes a branch of the sample before, so that all
symbols come one sample early. The results are not reduced to signed words of 32 bits; they fit for
`k` and a number of branches up to `2 ^ 31 - 1`. -/
def alignment (c : Config) (offset : Float32) : Int × Nat :=
  let k := signed32 c.k
  let n := signed32 c.branches
  let r := nearestInt32 (clamp offset (-0.5) 0.5 * ofInteger n)
  let (timer, branch) := if r < 0 then (k - 1, r + n) else (k - 2, r)
  (timer, unsigned64 (min branch (n - 1)))

def handOff [DetectorStage D] [MixerStage M] [BankStage F] (s : Synchronizer C D M F) :
    Synchronizer C D M F :=
  let e := DetectorStage.estimate s.detector
  let (timer, branch) := alignment s.config e.timing
  { s with
    bank := BankStage.setScale s.bank (1 / (ofCount s.config.k * e.gain))
    mixer := MixerStage.setPhase (MixerStage.setFrequency s.mixer e.frequency) e.phase
    mode := .tracking
      { timer, branch, symbols := 0, frequency := e.frequency, phase := e.phase } }

/-- Changes how many symbols the consumer gets at a time. Windows that are complete by the new
length are handed over at once; a reset that the consumer asks for meanwhile is not carried out,
since it would lose the symbols that remain. -/
def setBufferLength (s : Synchronizer C D M F) (length : Nat) :
    Except Fault (Synchronizer C D M F) := do
  let (buffer, windows) ← s.buffer.resize length
  return windows.foldl (fun s w => (s.consume w).1) { s with buffer }

def setThreshold [DetectorStage D] (s : Synchronizer C D M F) (threshold : Float32) :
    Except Fault (Synchronizer C D M F) := do
  let detector ← DetectorStage.setThreshold s.detector threshold
  return { s with detector }

def setRange [DetectorStage D] (s : Synchronizer C D M F) (range : Float32) :
    Except Fault (Synchronizer C D M F) := do
  let detector ← DetectorStage.setRange s.detector range
  return { s with detector }

def tracking? (s : Synchronizer C D M F) : Option Tracking :=
  match s.mode with
  | .searching => none
  | .tracking t => some t

def isOpen (s : Synchronizer C D M F) : Bool := s.tracking?.isSome

theorem isOpen_of_tracking {s : Synchronizer C D M F} {t : Tracking} (mode : s.mode = .tracking t) :
    s.isOpen = true := by
  rw [isOpen, tracking?, mode]
  rfl

theorem isOpen_of_searching {s : Synchronizer C D M F} (mode : s.mode = .searching) :
    s.isOpen = false := by
  rw [isOpen, tracking?, mode]
  rfl

def symbolCount (s : Synchronizer C D M F) : Nat := (s.tracking?.map (·.symbols)).getD 0

def bufferLength (s : Synchronizer C D M F) : Nat := s.buffer.length

def buffered (s : Synchronizer C D M F) : Array Sample := s.buffer.pending

end Synchronizer

end FrameSync
