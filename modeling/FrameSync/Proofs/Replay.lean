import FrameSync.Proofs.WorkList

/-!
Nested replays against the flat machine, with the calls of the consumer in view. A recording
consumer writes down every window it gets and its answer. Its record does not change the run, and
both ways of running the samples leave the same record, however the samples are cut into blocks.
-/

namespace FrameSync

abbrev Exchange := Window × Action

variable {C D M F : Type}

def recordingConsumer (consumer : Consumer C) : Consumer (C × List Exchange) :=
  fun w context =>
    (((consumer w context.1).1, context.2 ++ [(w, (consumer w context.1).2)]),
      (consumer w context.1).2)

theorem recordingConsumer_injective :
    Function.Injective (recordingConsumer : Consumer C → Consumer (C × List Exchange)) := by
  intro f g same
  funext w context
  have call := congrFun (congrFun same w) (context, [])
  simp only [recordingConsumer, Prod.mk.injEq] at call
  exact Prod.ext call.1.1 call.2

namespace Synchronizer

def recording (s : Synchronizer C D M F) (exchanges : List Exchange) :
    Synchronizer (C × List Exchange) D M F where
  config := s.config
  sequenceLength := s.sequenceLength
  detector := s.detector
  mixer := s.mixer
  bank := s.bank
  mode := s.mode
  buffer := s.buffer
  replay := s.replay
  consumer := s.consumer.map recordingConsumer
  context := (s.context, exchanges)

theorem recording_inj {s s' : Synchronizer C D M F} {exchanges exchanges' : List Exchange}
    (same : s.recording exchanges = s'.recording exchanges') :
    s = s' ∧ exchanges = exchanges' := by
  obtain ⟨config, sequenceLength, detector, mixer, bank, mode, buffer, replay, consumer, context⟩ := s
  simp only [recording, Synchronizer.mk.injEq, Prod.mk.injEq] at same
  obtain ⟨rfl, rfl, rfl, rfl, rfl, rfl, rfl, rfl, consumer, rfl, rfl⟩ := same
  obtain rfl := Option.map_injective recordingConsumer_injective consumer
  exact ⟨rfl, rfl⟩

theorem offer_recording [DetectorStage D] [BankStage F] (s : Synchronizer C D M F)
    (exchanges : List Exchange) (w : Option Window) :
    ∃ more, (s.recording exchanges).offer w = (s.offer w).recording (exchanges ++ more) := by
  cases w with
  | none => exact ⟨[], by rw [List.append_nil]; rfl⟩
  | some w =>
    obtain ⟨config, sequenceLength, detector, mixer, bank, mode, buffer, replay, consumer,
      context⟩ := s
    cases consumer with
    | none => exact ⟨[], by rw [List.append_nil]; rfl⟩
    | some consumer =>
      refine ⟨[(w, (consumer w context).2)], ?_⟩
      simp only [offer, answer, recording, Option.map_some, recordingConsumer]
      cases (consumer w context).2 <;> rfl

variable [DetectorStage D] [MixerStage M] [BankStage F]

theorem track_recording (s : Synchronizer C D M F) (exchanges : List Exchange) (t : Tracking)
    (x : Sample) :
    ∃ more, (s.recording exchanges).track t x = (s.track t x).recording (exchanges ++ more) := by
  rw [track_eq, track_eq]
  exact offer_recording (s.stepped t x) exchanges (s.windowAt t x)

theorem executeWithin_recording (depth : Nat) (s : Synchronizer C D M F) (xs : List Sample)
    (exchanges : List Exchange) :
    ∃ more, executeWithin depth (s.recording exchanges) xs =
      (executeWithin depth s xs).map (recording · (exchanges ++ more)) := by
  fun_induction executeWithin depth s xs generalizing exchanges with
  | case1 depth s => exact ⟨[], by rw [executeWithin_nil, List.append_nil]; rfl⟩
  | case2 depth s x xs t mode ih =>
    obtain ⟨first, stepped⟩ := s.track_recording exchanges t x
    obtain ⟨more, run⟩ := ih (exchanges ++ first)
    refine ⟨first ++ more, ?_⟩
    rw [executeWithin_tracking (s := s.recording exchanges) mode, stepped, run,
      List.append_assoc]
  | case3 depth s x xs mode detector step ih =>
    obtain ⟨more, run⟩ := ih exchanges
    exact ⟨more, (executeWithin_missed (s := s.recording exchanges) mode step depth xs).trans run⟩
  | case4 s x xs mode detector window step =>
    exact ⟨[], executeWithin_found_zero (s := s.recording exchanges) mode step xs⟩
  | case5 s x xs mode detector window step depth s₀ ih₁ =>
    rename_i ih₂
    obtain ⟨first, inner⟩ := ih₁ exchanges
    have found := executeWithin_found (s := s.recording exchanges) mode step depth xs
    change _ = (executeWithin depth (recording { s₀ with replay := #[] } exchanges)
      s₀.replay.toList).bind _ at found
    rw [found, inner]
    cases executeWithin depth { s₀ with replay := #[] } s₀.replay.toList with
    | none => exact ⟨[], rfl⟩
    | some s₁ =>
      obtain ⟨more, outer⟩ := ih₂ s₁ (exchanges ++ first)
      refine ⟨first ++ more, ?_⟩
      rw [← List.append_assoc]
      exact outer

/-- The nested replays lead from `s` to `s'`, and the consumer gets these calls. -/
def ExecutesCalling (s : Synchronizer C D M F) (xs : List Sample) (exchanges : List Exchange)
    (s' : Synchronizer C D M F) : Prop :=
  (s.recording []).Executes xs (s'.recording exchanges)

/-- The flat machine leads from `s` to `s'`, and the consumer gets these calls. -/
def DrainsCalling (s : Synchronizer C D M F) (xs : List Sample) (exchanges : List Exchange)
    (s' : Synchronizer C D M F) : Prop :=
  (s.recording []).Drains xs (s'.recording exchanges)

theorem executes_iff_calling {s s' : Synchronizer C D M F} {xs : List Sample} :
    s.Executes xs s' ↔ ∃ exchanges, s.ExecutesCalling xs exchanges s' := by
  constructor
  · rintro ⟨depth, run⟩
    obtain ⟨more, recorded⟩ := s.executeWithin_recording depth xs []
    rw [run] at recorded
    exact ⟨more, depth, recorded⟩
  · rintro ⟨exchanges, depth, run⟩
    obtain ⟨more, recorded⟩ := s.executeWithin_recording depth xs []
    rw [run] at recorded
    obtain ⟨s'', run', same⟩ := Option.map_eq_some_iff.mp recorded.symm
    exact ⟨depth, (recording_inj same).1 ▸ run'⟩

theorem drainsCalling_of_executesCalling {s s' : Synchronizer C D M F} {xs : List Sample}
    {exchanges : List Exchange} (run : s.ExecutesCalling xs exchanges s') :
    s.DrainsCalling xs exchanges (s'.withReplay s.replay) := by
  obtain ⟨depth, run⟩ := run
  exact drains_of_executeWithin run

theorem exists_executesCalling {s s' : Synchronizer C D M F} {xs : List Sample}
    {exchanges : List Exchange} (run : s.DrainsCalling xs exchanges s') :
    ∃ replay, s.ExecutesCalling xs exchanges (s'.withReplay replay) :=
  exists_executes_of_drains run

theorem ExecutesCalling.withReplay {s s' : Synchronizer C D M F} {xs : List Sample}
    {exchanges : List Exchange} (run : s.ExecutesCalling xs exchanges s')
    (replay : Array Sample) :
    ∃ replay', (s.withReplay replay).ExecutesCalling xs exchanges (s'.withReplay replay') := by
  have flat : ((s.withReplay replay).recording []).Drains xs
      ((s'.withReplay replay).recording exchanges) :=
    (drainsCalling_of_executesCalling run).withReplay replay
  obtain ⟨replay', run'⟩ := exists_executesCalling flat
  exact ⟨replay', run'⟩

/-- Wherever the nested replays come to an end, the flat machine comes to the same end with the
same calls of the consumer, and conversely. Only the replay store may differ, and what it held
before changes nothing. So the samples may be cut into blocks anywhere. -/
theorem execute_linearises (s : Synchronizer C D M F) (xs : List Sample) :
    (∀ s', s.Executes xs s' ↔ ∃ exchanges, s.ExecutesCalling xs exchanges s') ∧
    (∀ exchanges s', s.ExecutesCalling xs exchanges s' →
      s.DrainsCalling xs exchanges (s'.withReplay s.replay)) ∧
    (∀ exchanges s', s.DrainsCalling xs exchanges s' →
      ∃ replay, s.ExecutesCalling xs exchanges (s'.withReplay replay)) ∧
    (∀ replay exchanges s', s.ExecutesCalling xs exchanges s' →
      ∃ replay', (s.withReplay replay).ExecutesCalling xs exchanges (s'.withReplay replay')) ∧
    (∀ blocks : List (List Sample), blocks.flatten = xs → ∀ exchanges s',
      s.ExecutesCalling xs exchanges s' ↔
        (s.recording []).Performs (blocks.map .execute) (s'.recording exchanges)) ∧
    (∀ [LawfulDetectorStage D], s.Executes xs (s.execute xs)) := by
  refine ⟨fun s' => executes_iff_calling, fun _ _ => drainsCalling_of_executesCalling,
    fun _ _ => exists_executesCalling, fun replay _ _ run => run.withReplay replay, ?_,
    executes_execute s xs⟩
  intro blocks cut exchanges s'
  rw [performs_execute, cut]
  rfl

end Synchronizer

end FrameSync
