import FrameSync.Synchronizer.Basic

/-!
Running blocks of samples through a synchronizer. The samples that the detector hands out with a
detection belong to the frame, so they are run through the synchronizer again, before the rest of
the block. The consumer may end the frame in the middle of such a replay; what is left of it then
goes to the detector, which may find a frame inside the replay. The window to be replayed is kept
in the synchronizer, taken out while it runs and put back afterwards.
-/

namespace FrameSync.Synchronizer

variable {C D M F : Type} [DetectorStage D] [MixerStage M] [BankStage F]

/-- Runs samples through the synchronizer with at most `depth` replays inside one another; none
if there are more. -/
def executeWithin : Nat → Synchronizer C D M F → List Sample → Option (Synchronizer C D M F)
  | _, s, [] => some s
  | depth, s, x :: xs =>
    match s.mode with
    | .tracking t => executeWithin depth (s.track t x) xs
    | .searching =>
      match DetectorStage.execute s.detector x with
      | (detector, none) => executeWithin depth { s with detector } xs
      | (detector, some window) =>
        match depth with
        | 0 => none
        | depth + 1 =>
          let s := { s with detector, replay := window }.handOff
          (executeWithin depth { s with replay := #[] } s.replay.toList).bind fun s' =>
            executeWithin (depth + 1) { s' with replay := s.replay } xs
termination_by depth _ xs => (depth, xs.length)

/-- Runs samples through the synchronizer. A replay holds only samples that the detector was
given, and tracks the first of them, so there are never more replays inside one another than
samples that the detector holds or is about to get. -/
def execute (s : Synchronizer C D M F) (xs : List Sample) : Synchronizer C D M F :=
  (executeWithin (xs.length + DetectorStage.held s.detector) s xs).getD s

end FrameSync.Synchronizer
