import Fota.Proofs.Update.Record
import Fota.Proofs.Update.Rehearsal
import Fota.Proofs.Update.Steady

/-
  This file shows that stage, status and versions of a
  checkpoint agree with each other throughout the life of a
  device, in the updater as well as in each record that is
  stored.

  Key definitions include:
    * `Updater.StoresRecorded`
    * `Update.Course.Sound`
    * `Life.Tells`

  The main statements are `Life.Lived.sound` and
  `Life.lived_consistent`.
-/

namespace Fota

open Update (Course Question Setting)

namespace Updater

variable
  {u next : Updater}
  {now : Instant}
  {entered : Bool}

------------------------------------------------------------
-- Records
------------------------------------------------------------

/- What a question asks to be stored is a recorded checkpoint. -/
def StoresRecorded
    (question : Question) : Prop :=
  ∀ record, question = .store record →
    ∃ stored : Checkpoint,
      stored.Recorded ∧ record = Record.encode stored

theorem storesRecorded_storing
    (hSteady : u.checkpoint.Steady)
    (hStage : u.checkpoint.stage ∈ Checkpoint.storedStages) :
    StoresRecorded u.storing := by
  intro record hEq
  cases hEq
  exact ⟨u.checkpoint, ⟨hSteady, hStage⟩, rfl⟩

/- A tick stores recorded checkpoints. -/
theorem storesRecorded_of_mayAsk
    {question : Question}
    (hSteady : u.checkpoint.Steady)
    (hPrimed :
      u.stage = .installStarting → entered = false →
        u.checkpoint.replaced ≠ 0)
    (hAsk : u.MayAsk entered u.stage question) :
    StoresRecorded question := by
  have hWithin :
      ∀ target, target.phase = u.stage.phase →
        target ∈ Checkpoint.storedStages →
        StoresRecorded (u.withStage target).storing := by
    intro target hPhase hTarget
    exact
      storesRecorded_storing (hSteady.within rfl hPhase) hTarget
  cases hStage : u.stage <;> rw [hStage] at hAsk hWithin <;>
    simp only [MayAsk, List.mem_cons, List.not_mem_nil,
      or_false] at hAsk
  case qualifyModemOn =>
    have hStatus : u.checkpoint.status = .idle := by
      have hAllowed := hSteady.status
      rw [show u.checkpoint.stage = _ from hStage] at hAllowed
      exact hAllowed
    rcases hAsk with hListed | ⟨version, offer, hVersion, hOffer⟩
    · rcases hListed with rfl | rfl | rfl | rfl | rfl <;>
        intro record hEq <;> cases hEq
    · rcases hOffer with ⟨hOffered, rfl⟩
      apply storesRecorded_storing
      · exact
          steady_of_offered hVersion hStatus hSteady.own
            hOffered
      · rw [show offer.checkpoint.stage = _ from
          stage_offered hOffered]
        simp [Checkpoint.storedStages]
  case installStarting =>
    cases entered with
    | true =>
        simp only [if_true] at hAsk
        rcases hAsk with rfl | rfl | rfl <;>
          intro record hEq <;> cases hEq
    | false =>
        simp only [Bool.false_eq_true, if_false] at hAsk
        rcases hAsk with rfl | rfl
        · intro record hEq
          cases hEq
        · apply storesRecorded_storing
          · exact
              steady_awaiting hSteady hStage
                (hPrimed hStage rfl)
          · change Stage.installWaiting ∈ _
            simp [Checkpoint.storedStages]
  case finishedPowerOff =>
    rcases hAsk with rfl | rfl
    · apply hWithin .finishedPowerOff rfl
      simp [Checkpoint.storedStages]
    · intro record hEq
      cases hEq
  case finishedPoweringOff =>
    rcases hAsk with rfl | rfl
    · intro record hEq
      cases hEq
    · apply hWithin .finishedCloudConnecting rfl
      simp [Checkpoint.storedStages]
  case finishedIdle =>
    rcases hAsk with rfl | rfl | rfl
    · intro record hEq
      cases hEq
    · apply hWithin .finishedIdle rfl
      simp [Checkpoint.storedStages]
    · intro record hEq
      cases hEq
  all_goals
    intro record hEq
    subst hEq
    simp at hAsk

end Updater

------------------------------------------------------------
-- Sound Courses
------------------------------------------------------------

open Updater (Holds StoresRecorded)

/-
  The slot holds a recorded checkpoint if any, and nothing else
  was written to it in this boot.
-/
structure Update.Course.Sound
    (c : Course) : Prop where
  held : ∀ stored, Holds c.stored stored → stored.Recorded
  written : ∀ record answer,
    .asked (.store record) answer ∈ c.past →
      ∃ stored : Checkpoint,
        stored.Recorded ∧ record = Record.encode stored

namespace Update.Course

variable
  {s : Setting}
  {c c' : Course}
  {question : Question}
  {answer : Update.Answer question}

/- A slot that was written holds what was written. -/
theorem holds_encode
    {stored held : Checkpoint}
    (hHolds : Holds (some (Record.encode stored)) held) :
    held = stored := by
  rcases hHolds with ⟨record, hRecord, hDecoded⟩
  rw [Option.mem_some] at hRecord
  rw [← hRecord, Record.decode?_encode] at hDecoded
  exact (Option.some.inj hDecoded).symm

theorem Sound.held_of_goes
    (hSound : c.Sound)
    (hQuestion : StoresRecorded question)
    (hGoes : goes s c question answer c')
    (stored : Checkpoint)
    (hHolds : Holds c'.stored stored) :
    stored.Recorded := by
  by_cases hStore : ∃ record, question = .store record
  · rcases hStore with ⟨record, rfl⟩
    rcases hQuestion record rfl with ⟨written, hRecorded, rfl⟩
    rcases stored_of_store hGoes with hKept | hWritten
    · rw [hKept] at hHolds
      exact hSound.held stored hHolds
    · rw [hWritten] at hHolds
      rw [holds_encode hHolds]
      exact hRecorded
  · rw [stored_of_goes hGoes (fun record hEq =>
      hStore ⟨record, hEq⟩)] at hHolds
    exact hSound.held stored hHolds

/- A question that stores recorded checkpoints keeps a course. -/
theorem Sound.goes
    (hSound : c.Sound)
    (hQuestion : StoresRecorded question)
    (hGoes : goes s c question answer c') :
    c'.Sound := by
  refine ⟨hSound.held_of_goes hQuestion hGoes, ?_⟩
  intro record answer' hMem
  rcases (asked_of_goes hGoes).mp hMem with hMem | hEq
  · exact hSound.written record answer' hMem
  · cases hEq
    exact hQuestion record rfl

theorem sound_fresh
    {slot : Option (List UInt8)}
    {safeMode : Bool}
    (hHeld : ∀ stored, Holds slot stored → stored.Recorded) :
    (fresh slot safeMode).Sound := by
  refine ⟨hHeld, ?_⟩
  intro record answer hMem
  cases hMem

end Update.Course

------------------------------------------------------------
-- Sound Lives
------------------------------------------------------------

namespace Updater

variable
  {s : Setting}
  {u : Updater}
  {c : Course}

theorem recorded_atRest
    (stored : Checkpoint) :
    (atRest stored).Recorded := by
  constructor
  · refine Checkpoint.steady_of_rest rfl ?_
    intro hOwnPath
    cases hOwnPath
  · change Stage.idle ∈ _
    simp [Checkpoint.storedStages]

theorem recorded_initial :
    Checkpoint.initial.Recorded := by
  constructor
  · refine Checkpoint.steady_of_rest rfl ?_
    intro hOwnPath
    cases hOwnPath
  · change Stage.idle ∈ _
    simp [Checkpoint.storedStages]

/- A start takes up a recorded checkpoint. -/
theorem recorded_of_wakes
    {slot : Option (List UInt8)}
    {safeMode : Bool}
    {next : Checkpoint}
    (hHeld : ∀ stored, Holds slot stored → stored.Recorded)
    (hWakes : Wakes s slot safeMode next) :
    next.Recorded := by
  rcases hWakes with rfl | ⟨stored, hHolds, hNext⟩
  · exact recorded_initial
  · have hRecorded := hHeld stored hHolds
    rcases hNext with ⟨_, rfl⟩ | ⟨_, rfl⟩ | ⟨_, _, rfl⟩
    · exact recorded_atRest stored
    · exact hRecorded
    · exact hRecorded

/- A start stores recorded checkpoints. -/
theorem storesRecorded_of_waking
    {slot : Option (List UInt8)}
    {question : Question}
    (hAsk : WakingAsks slot question) :
    StoresRecorded question := by
  intro record hEq
  subst hEq
  rcases hAsk with hListed | ⟨stored, hHolds, hFinished, hMem⟩
  · simp at hListed
  · simp only [List.mem_cons, reduceCtorEq, false_or,
      List.not_mem_nil, or_false, Question.store.injEq] at hMem
    exact ⟨atRest stored, recorded_atRest stored, hMem⟩

/- A start from a recorded checkpoint gives a sound updater. -/
theorem always_sound_init
    {slot : Option (List UInt8)}
    {safeMode : Bool}
    (hHeld : ∀ stored, Holds slot stored → stored.Recorded) :
    u.init.Always (Course.goes s) Course.Sound
      (fun next _ => next.Sound) (.fresh slot safeMode) := by
  have hKept :
      ∀ c question answer c',
        WakingAsks slot question → Course.Sound c →
        Course.goes s c question answer c' →
        Course.Sound c' := by
    intro c question answer c' hAsk hSound hGoes
    exact hSound.goes (storesRecorded_of_waking hAsk) hGoes
  have hStart : (Course.fresh slot safeMode).Sound :=
    Update.Course.sound_fresh hHeld
  apply (always_init hKept hStart).mono
  · intro c hSound
    exact hSound
  · intro next c' hNext
    have hRecorded := recorded_of_wakes hHeld hNext.1.2
    exact sound_of_fresh hRecorded.toSteady hNext.1.1

/- Working on a stage keeps updater and course sound. -/
theorem always_sound_work
    (hSound : u.Sound)
    (hCourse : c.Sound)
    (now : Instant) :
    ((u.entering now).work now u.time.enteredAt.isNone).Always
      (Course.goes s) Course.Sound (fun next _ => next.Sound)
      c := by
  have hSteady : (u.entering now).checkpoint.Steady :=
    hSound.steady
  have hPrimed :
      (u.entering now).stage = .installStarting →
        u.time.enteredAt.isNone = false →
          (u.entering now).checkpoint.replaced ≠ 0 := by
    intro hStage hEntered
    apply hSound.primed hStage
    intro hNone
    rw [hNone] at hEntered
    cases hEntered
  have hKept :
      ∀ c question answer c',
        (u.entering now).MayAsk u.time.enteredAt.isNone
          (u.entering now).stage question →
        Course.Sound c →
        Course.goes s c question answer c' →
        Course.Sound c' := by
    intro c question answer c' hAsk hCourse hGoes
    exact
      hCourse.goes
        (storesRecorded_of_mayAsk hSteady hPrimed hAsk) hGoes
  apply (Dialogue.always_of_asks work_asks work_yields hKept
    hCourse).mono
  · intro c hCourse
    exact hCourse
  · intro next c' hNext
    exact hSound.work hNext.1

/- A call keeps updater and course sound. -/
theorem always_sound_call
    (call : Call)
    (hCourse : c.Sound)
    (hSound : u.Sound) :
    (call.carryOut u).Always (Course.goes s) Course.Sound
      (fun next _ => next.Sound) c := by
  have hKept :
      ∀ c question answer c',
        question ∈ quietQuestions → Course.Sound c →
        Course.goes s c question answer c' →
        Course.Sound c' := by
    intro c question answer c' hMem hCourse hGoes
    apply hCourse.goes _ hGoes
    intro record hEq
    subst hEq
    simp [quietQuestions, requestQuestions] at hMem
  apply always_call call hKept
  · intro c hCourse
    exact hCourse
  · intro next c hNext hCourse
    exact hSound.request hNext
  · intro cooldown c hCourse
    exact ⟨hSound.steady, hSound.primed⟩
  · intro now c hCourse
    exact always_sound_work hSound hCourse now
  · exact hCourse

end Updater

namespace Life

theorem holds_of_survives
    {slot slot' : Option (List UInt8)}
    {stored : Checkpoint}
    (hSurvives : Survives slot slot')
    (hHolds : Holds slot' stored) :
    Holds slot stored := by
  rcases hSurvives with rfl | hUnreadable
  · exact hHolds
  · rcases hHolds with ⟨record, hRecord, hDecoded⟩
    rw [hUnreadable record hRecord] at hDecoded
    cases hDecoded

/- Updater and course are sound throughout the life of a device. -/
theorem Lived.sound
    {s : Setting}
    {l : Life}
    (hLived : l.Lived s) :
    l.course.Sound ∧ ∀ u ∈ l.updater, u.Sound := by
  refine
    Lived.invariant Course.Sound (fun u _ => u.Sound)
      ?_ ?_ ?_ hLived
  · intro slot safeMode hUnreadable
    apply Update.Course.sound_fresh
    intro stored ⟨record, hRecord, hDecoded⟩
    rw [hUnreadable record hRecord] at hDecoded
    cases hDecoded
  · intro l slot safeMode policy server hLived hCourse hSurvives
    have hHeld :
        ∀ stored, Holds slot stored → stored.Recorded := by
      intro stored hHolds
      exact
        hCourse.held stored (holds_of_survives hSurvives hHolds)
    exact
      ⟨Update.Course.sound_fresh hHeld,
        Updater.always_sound_init hHeld⟩
  · intro call u c hCourse hSound
    exact Updater.always_sound_call call hCourse hSound

/- What a boot finds in the slot is a recorded checkpoint. -/
theorem Lived.recorded
    {s : Setting}
    {l : Life}
    {slot : Option (List UInt8)}
    (hLived : l.Lived s)
    (hSurvives : Survives l.course.stored slot)
    (stored : Checkpoint)
    (hHolds : Holds slot stored) :
    stored.Recorded :=
  hLived.sound.1.held stored (holds_of_survives hSurvives hHolds)

------------------------------------------------------------
-- Published Events
------------------------------------------------------------

/- An event that is published tells the status of the run. -/
def Tells
    (u : Updater)
    (question : Question) : Prop :=
  ∀ event, question = .publish event →
    (event = .success ↔ u.status = .success) ∧
      (event = .failed ↔ u.status.isFailure = true)

theorem tells_of_mayAsk
    {u : Updater}
    {call : Updater.Call}
    {question : Question}
    (hSound : u.Sound)
    (hAsk : call.MayAsk u question) :
    Tells u question := by
  have hAllowed : u.stage.phase.Allows u.status :=
    hSound.steady.status
  intro event hEq
  subst hEq
  cases call with
  | tick =>
      rcases hAsk with hAsk | hAsk | hAsk
      · cases hAsk
      · cases hAsk
      · cases hStage : u.stage <;> rw [hStage] at hAsk hAllowed
        case setupCloudConnected =>
          change u.status = .idle at hAllowed
          simp [Updater.MayAsk] at hAsk
          simp [hAsk, hAllowed, Status.isFailure]
        case finishedCloudConnected =>
          simp [Updater.MayAsk] at hAsk
          rcases hAllowed with hSuccess | hFailure
          · simp [hAsk, hSuccess, Updater.resultEvent,
              Status.isFailure]
          · have hNot : u.status ≠ .success := by
              intro hSuccess
              rw [hSuccess] at hFailure
              cases hFailure
            simp [hAsk, hFailure, hNot, Updater.resultEvent]
        all_goals
          simp [Updater.MayAsk, Updater.storing] at hAsk
  | _ =>
      simp [Updater.Call.MayAsk, Updater.requestQuestions]
        at hAsk

/-
  Throughout the life of a device, stage, status and versions
  agree in the updater and in each record that is stored, and an
  event is published only in a call and tells the status.
-/
theorem lived_consistent
    {l : Life}
    (hLived : l.Lived .free) :
    (∀ u ∈ l.updater, u.checkpoint.Consistent) ∧
      (∀ record answer,
        .asked (.store record) answer ∈ l.course.past →
          ∃ stored : Checkpoint,
            stored.Consistent ∧ record = Record.encode stored) ∧
      (∀ l' event answer, l.Boots .free l' →
        .asked (.publish event) answer ∉ l'.course.past) ∧
      ∀ call l', l.Calls .free call l' →
        ∃ u ∈ l.updater,
          l.course.AsksOnly (Tells u) l'.course := by
  rcases hLived.sound with ⟨hCourse, hUpdater⟩
  refine ⟨?_, ?_, ?_, ?_⟩
  · intro u hMem
    exact (hUpdater u hMem).steady.toConsistent
  · intro record answer hMem
    rcases hCourse.written record answer hMem with
      ⟨stored, hRecorded, hRecord⟩
    exact ⟨stored, hRecorded.toConsistent, hRecord⟩
  · intro l' event answer hBoots hMem
    rcases hBoots.mayAsk with ⟨slot, hWaking⟩
    have hAsk := hWaking _ answer hMem
    simp [Updater.WakingAsks] at hAsk
  · intro call l' hCalls
    rcases hCalls.asksOnly with ⟨u, hMem, added, hPast, hAdded⟩
    refine ⟨u, hMem, added, hPast, ?_⟩
    intro question answer hAsked
    exact
      tells_of_mayAsk (hUpdater u hMem)
        (hAdded question answer hAsked)

/- A smooth run is consistent while it waits for its install. -/
theorem consistent_on_smooth_run :
    (smooth 14).Lived .free ∧
      ∃ u ∈ (smooth 14).updater,
        u.stage = .installWaiting ∧ u.checkpoint.Consistent := by
  have hLived : (smooth 14).Lived .free := (lived_smooth 14).free
  have hStage :
      (smooth 14).updater.map Updater.stage =
        some .installWaiting := by
    decide +kernel
  rcases Option.map_eq_some_iff.mp hStage with ⟨u, hMem, hWaiting⟩
  exact
    ⟨hLived, u, hMem, hWaiting,
      (lived_consistent hLived).1 u hMem⟩

end Life

end Fota
