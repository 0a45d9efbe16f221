import Fota.Proofs.Board.Serving
import Fota.Proofs.Update.Consistency

/-
  This file shows when an updater owns the modem, so that the
  supervision of its link sends no command: always from the
  moment at which it drops the link until its install was
  started, and while it waits for the end of an install that was
  started in the same boot. An updater that takes up such a wait
  after a reset does not own the modem.

  Key definitions include:
    * `Stage.exclusive`
    * `Update.Course.StartedInstall`
    * `Update.Course.Owned`
    * `Updater.Owns`

  The main statements are `Life.Lived.owns` and
  `Life.modem_owned`.
-/

namespace Fota

open Update (Answer Course Question Setting Talk)

------------------------------------------------------------
-- Owned Modems
------------------------------------------------------------

/- The stages that need the modem for themselves. -/
def Stage.exclusive : List Stage :=
  [downloadCellDisconnecting, downloadCellConnecting,
    downloadHttpsSetup, downloadReady,
    installCellDisconnecting, installStarting]

/- A question that neither sets the mode nor starts an install. -/
structure Update.Question.Neutral
    (question : Question) : Prop where
  mode : ∀ enabled, question ≠ .setUpdateMode enabled
  install : question ≠ .command .install

namespace Stage

variable {stage target : Stage}

/- The modem is taken where the exclusive stages are entered. -/
theorem exclusive_of_successor
    (hMem : target ∈ stage.successors)
    (hTarget : target ∈ exclusive) :
    stage = .downloadCloudDisconnect ∨ stage ∈ exclusive := by
  revert target
  cases stage <;> simp [successors, exclusive]

/- The wait for an install comes after it was started. -/
theorem installStarting_of_successor
    (hMem : .installWaiting ∈ stage.successors) :
    stage = .installStarting := by
  cases stage <;> simp [successors] at hMem
  rfl

end Stage

namespace Update.Course

variable
  {s : Setting}
  {c c' : Course}
  {question : Question}
  {answer : Answer question}

/- An install was started in this boot. -/
def StartedInstall
    (c : Course) : Prop :=
  ∃ reply, .asked (.command .install) reply ∈ c.past

/-
  The update mode is on, as it is on each device that serves the
  course, and the supervision of such a device is silent.
-/
def Owned
    (c : Course) : Prop :=
  c.updateMode = true ∧
    ∀ (σ : Type) [Hardware σ] (d : Device σ), d.Serves c →
      d.link.updateMode = true ∧ d.Silent

/- The modem is owned when the update mode is on. -/
theorem owned_iff_updateMode :
    c.Owned ↔ c.updateMode = true := by
  constructor
  · intro hOwned
    exact hOwned.1
  · intro hMode
    refine ⟨hMode, ?_⟩
    intro σ _ d hServes
    have hTied := hServes.tied
    rw [hMode] at hTied
    exact ⟨hTied.updateMode, Device.silent_of_updateMode hTied⟩

theorem startedInstall_of_goes
    (hQuestion : question ≠ .command .install)
    (hGoes : goes s c question answer c') :
    c'.StartedInstall ↔ c.StartedInstall := by
  constructor
  · rintro ⟨reply, hMem⟩
    rcases (asked_of_goes hGoes).mp hMem with hMem | hEq
    · exact ⟨reply, hMem⟩
    · cases hEq
      exact absurd rfl hQuestion
  · rintro ⟨reply, hMem⟩
    exact ⟨reply, (asked_of_goes hGoes).mpr (Or.inl hMem)⟩

end Update.Course

------------------------------------------------------------
-- Owning Updaters
------------------------------------------------------------

namespace Updater

variable
  {s : Setting}
  {u next : Updater}
  {c c' : Course}
  {now : Instant}
  {entered : Bool}

/-
  Between calls, an updater has switched the update mode on in
  each exclusive stage. Once it has entered the stage in which
  it starts the install, it has done so. While it waits for the
  end of an install, the mode is on just when that was started
  in the same boot.
-/
structure Owns
    (u : Updater)
    (c : Course) : Prop where
  taken : u.stage ∈ Stage.exclusive → c.updateMode = true
  started :
    u.stage = .installStarting → u.time.enteredAt ≠ none →
      c.StartedInstall
  waiting :
    u.stage = .installWaiting →
      (c.updateMode = true ↔ c.StartedInstall)

/- Outside of download and install there is nothing to own. -/
theorem owns_of_stage
    (hExclusive : u.stage ∉ Stage.exclusive)
    (hWaiting : u.stage ≠ .installWaiting) :
    u.Owns c := by
  constructor
  · intro hStage
    exact absurd hStage hExclusive
  · intro hStage
    rw [hStage] at hExclusive
    simp [Stage.exclusive] at hExclusive
  · intro hStage
    exact absurd hStage hWaiting

/- An updater owns the modem as long as nothing else happens. -/
theorem Owns.goes
    {question : Question}
    {answer : Answer question}
    (hOwns : u.Owns c)
    (hNeutral : question.Neutral)
    (hGoes : Course.goes s c question answer c') :
    u.Owns c' := by
  have hSameMode :=
    Course.updateMode_of_goes hGoes hNeutral.mode
  have hSameInstall :=
    Course.startedInstall_of_goes hNeutral.install hGoes
  constructor
  · intro hStage
    rw [hSameMode]
    exact hOwns.taken hStage
  · intro hStage hEntered
    rw [hSameInstall]
    exact hOwns.started hStage hEntered
  · intro hStage
    rw [hSameMode, hSameInstall]
    exact hOwns.waiting hStage

------------------------------------------------------------
-- Taking the Modem
------------------------------------------------------------

/- Taking the modem switches the update mode on. -/
theorem always_takeModem :
    (u.takeModem now).Always (Course.goes s) (fun _ => True)
      (fun next c' => next.Owns c') c := by
  unfold takeModem
  simp only [Talk.setUpdateMode, Talk.networkDisconnect,
    Dialogue.pure_eq_done, Dialogue.ask_bind,
    Dialogue.done_bind, Dialogue.always_ask,
    Dialogue.always_done]
  intro _ c₁ hTaken
  have hMode₁ : c₁.updateMode = true := by
    rcases hTaken with ⟨lines, hTruthful, hAllowed, rfl⟩
    rw [Course.updateMode_note]
    rfl
  refine ⟨trivial, ?_⟩
  intro _ c₂ hDropped
  have hMode₂ : c₂.updateMode = true := by
    rw [Course.updateMode_of_goes hDropped (by simp), hMode₁]
  refine ⟨trivial, ?_⟩
  constructor
  · intro _
    exact hMode₂
  · intro hStage
    cases hStage
  · intro hStage
    cases hStage

/- When the session has ended, or in time, the modem is taken. -/
theorem always_downloadCloudDisconnect
    (hStage : u.stage = .downloadCloudDisconnect) :
    (u.downloadCloudDisconnect now entered).Always
      (Course.goes s) (fun _ => True)
      (fun next c' => next.Owns c') c := by
  have hNothing : ∀ c : Course, u.Owns c := by
    intro c
    apply owns_of_stage <;> simp [hStage, Stage.exclusive]
  unfold downloadCloudDisconnect
  simp [always_takeModem, hNothing]

------------------------------------------------------------
-- Starting the Install
------------------------------------------------------------

/- The install is started while the update mode is on. -/
theorem always_owns_beginInstall
    (hStage : u.stage = .installStarting)
    (hMode : c.updateMode = true) :
    (u.beginInstall now).Always (Course.goes s)
      (fun _ => True) (fun next c' => next.Owns c') c := by
  have hKept :
      ∀ c question answer c',
        question = .command .identify ∨
          question = .clearProgress →
        c.updateMode = true →
        Course.goes s c question answer c' →
        c'.updateMode = true := by
    intro c question answer c' hQuestion hMode hGoes
    rw [Course.updateMode_of_goes hGoes, hMode]
    rcases hQuestion with rfl | rfl <;> simp
  apply always_beginInstall hKept _ _ hMode
  · intro c _
    trivial
  · intro version c c' reply hMode hInstalled
    have hMode' : c'.updateMode = true := by
      rw [Course.updateMode_of_goes hInstalled (by simp), hMode]
    have hStarted : c'.StartedInstall := by
      refine ⟨reply, ?_⟩
      exact (Course.asked_of_goes hInstalled).mpr (Or.inr rfl)
    refine ⟨trivial, ?_, ?_⟩
    · apply owns_of_stage <;> simp [Stage.exclusive]
    · constructor
      · intro _
        exact hMode'
      · intro _ _
        exact hStarted
      · intro hWaiting
        exact absurd (hStage.symm.trans hWaiting) (by simp)

------------------------------------------------------------
-- Owning Lives
------------------------------------------------------------

/- In download and install, the other questions are neutral. -/
theorem neutral_of_mayAsk
    {question : Question}
    (hStage :
      u.stage ∈ Stage.exclusive ∨ u.stage = .installWaiting)
    (hStarting : u.stage = .installStarting → entered = false)
    (hAsk : u.MayAsk entered u.stage question) :
    question.Neutral := by
  cases hFrom : u.stage <;>
    rw [hFrom] at hAsk hStage hStarting
  case installStarting =>
    rw [hStarting rfl] at hAsk
    constructor
    · rintro enabled rfl
      simp [MayAsk, storing] at hAsk
    · rintro rfl
      simp [MayAsk, storing] at hAsk
  case downloadCellDisconnecting =>
    constructor
    · rintro enabled rfl
      simp [MayAsk] at hAsk
    · rintro rfl
      simp [MayAsk] at hAsk
  all_goals
    first
      | (constructor
         · rintro enabled rfl
           simp [MayAsk] at hAsk
         · rintro rfl
           simp [MayAsk] at hAsk)
      | simp [Stage.exclusive] at hStage

/- Working on most stages leaves an updater its modem. -/
theorem Owns.work
    (hOwns : u.Owns c)
    (hFrom : u.stage ≠ .downloadCloudDisconnect)
    (hEntered :
      u.stage = .installStarting → c.StartedInstall)
    (hNext : u.Edge next) :
    next.Owns c := by
  rcases hNext with
    ⟨hSame, hTime⟩ | ⟨hMem, hTime⟩ | ⟨hModem, hTaken⟩
  · constructor
    · intro hStage
      rw [hSame] at hStage
      exact hOwns.taken hStage
    · intro hStage _
      rw [hSame] at hStage
      exact hEntered hStage
    · intro hStage
      rw [hSame] at hStage
      exact hOwns.waiting hStage
  · constructor
    · intro hStage
      rcases Stage.exclusive_of_successor hMem hStage with
        hCloud | hExclusive
      · exact absurd hCloud hFrom
      · exact hOwns.taken hExclusive
    · intro _ hLater
      rw [hTime] at hLater
      exact absurd rfl hLater
    · intro hStage
      rw [hStage] at hMem
      have hStarting := Stage.installStarting_of_successor hMem
      have hMode := hOwns.taken (by
        rw [hStarting]
        simp [Stage.exclusive])
      exact iff_of_true hMode (hEntered hStarting)
  · apply owns_of_stage <;> simp [hTaken, Stage.exclusive]

/- An updater keeps the modem throughout the work on a stage. -/
theorem Owns.asked
    {question : Question}
    {answer : Answer question}
    (hOwns : u.Owns c)
    (hStarting : u.stage = .installStarting → entered = false)
    (hAsk : u.MayAsk entered u.stage question)
    (hGoes : Course.goes s c question answer c') :
    u.Owns c' := by
  by_cases hStage :
      u.stage ∈ Stage.exclusive ∨ u.stage = .installWaiting
  · exact
      hOwns.goes (neutral_of_mayAsk hStage hStarting hAsk) hGoes
  · rw [not_or] at hStage
    exact owns_of_stage hStage.1 hStage.2

/- Working on a stage leaves an updater its modem. -/
theorem always_owns_work
    (hOwns : u.Owns c)
    (now : Instant) :
    ((u.entering now).work now u.time.enteredAt.isNone).Always
      (Course.goes s) (fun _ => True)
      (fun next c' => next.Owns c') c := by
  by_cases hCloud :
      (u.entering now).stage = .downloadCloudDisconnect
  · have hWork :
        (u.entering now).work now u.time.enteredAt.isNone =
          (u.entering now).downloadCloudDisconnect now
            u.time.enteredAt.isNone := by
      unfold work
      rw [hCloud]
    rw [hWork]
    exact always_downloadCloudDisconnect hCloud
  · by_cases hFirst :
        (u.entering now).stage = .installStarting ∧
          u.time.enteredAt = none
    · rcases hFirst with ⟨hStage, hNone⟩
      have hWork :
          (u.entering now).work now u.time.enteredAt.isNone =
            (u.entering now).beginInstall now := by
        unfold work
        rw [hStage, hNone]
        rfl
      have hMode : c.updateMode = true := by
        apply hOwns.taken
        rw [show u.stage = .installStarting from hStage]
        simp [Stage.exclusive]
      rw [hWork]
      exact always_owns_beginInstall hStage hMode
    · have hLater :
          (u.entering now).stage = .installStarting →
            u.time.enteredAt ≠ none := by
        intro hStage hNone
        exact hFirst ⟨hStage, hNone⟩
      have hEntering : (u.entering now).Owns c := by
        refine ⟨hOwns.taken, ?_, hOwns.waiting⟩
        intro hStage _
        exact hOwns.started hStage (hLater hStage)
      have hStarting :
          (u.entering now).stage = .installStarting →
            u.time.enteredAt.isNone = false := by
        intro hStage
        rw [Option.isNone_eq_false_iff, Option.isSome_iff_ne_none]
        exact hLater hStage
      have hKept :
          ∀ c question answer c',
            (u.entering now).MayAsk u.time.enteredAt.isNone
              (u.entering now).stage question →
            (u.entering now).Owns c →
            Course.goes s c question answer c' →
            (u.entering now).Owns c' := by
        intro c question answer c' hAsk hOwns hGoes
        exact hOwns.asked hStarting hAsk hGoes
      apply (Dialogue.always_of_asks work_asks work_yields hKept
        hEntering).mono
      · intro c _
        trivial
      · intro next c' hNext
        rcases hNext with ⟨hBecome, hOwns⟩
        apply hOwns.work hCloud _ (edge_of_mayBecome hBecome)
        intro hStage
        exact hOwns.started hStage (Option.some_ne_none _)

/- A request leaves an updater its modem. -/
theorem Owns.request
    (hOwns : u.Owns c)
    (hNext : u.Requested next) :
    next.Owns c := by
  rcases hNext with
    rfl | ⟨hReady, rfl⟩ | ⟨hIdle, rfl⟩ | ⟨path, hValid, hNext⟩
  · exact hOwns
  · apply owns_of_stage <;> simp [begun, Stage.exclusive]
  · have hStage : u.checkpoint.stage = .idle := hIdle
    apply owns_of_stage <;>
      simp [stage, hStage, Stage.exclusive]
  · rcases hNext with ⟨hReady, rfl⟩ | ⟨hIdle, rfl⟩
    · apply owns_of_stage <;> simp [begun, Stage.exclusive]
    · have hStage : u.checkpoint.stage = .idle := hIdle
      apply owns_of_stage <;>
        simp [usePath, stage, hStage, Stage.exclusive]

/- A call leaves an updater its modem. -/
theorem always_owns_call
    (call : Call)
    (hOwns : u.Owns c) :
    (call.carryOut u).Always (Course.goes s) (fun _ => True)
      (fun next c' => next.Owns c') c := by
  have hKept :
      ∀ c question answer c', question ∈ quietQuestions →
        u.Owns c → Course.goes s c question answer c' →
        u.Owns c' := by
    intro c question answer c' hMem hOwns hGoes
    apply hOwns.goes _ hGoes
    constructor
    · rintro enabled rfl
      simp [quietQuestions, requestQuestions] at hMem
    · rintro rfl
      simp [quietQuestions, requestQuestions] at hMem
  apply always_call call hKept
  · intro c _
    trivial
  · intro next c hNext hOwns
    exact hOwns.request hNext
  · intro cooldown c hOwns
    exact ⟨hOwns.taken, hOwns.started, hOwns.waiting⟩
  · intro now c hOwns
    exact always_owns_work hOwns now
  · exact hOwns

/- A start neither sets the mode nor starts an install. -/
theorem neutral_of_waking
    {slot : Option (List UInt8)}
    {question : Question}
    (hAsk : WakingAsks slot question) :
    question.Neutral := by
  constructor
  · rintro enabled rfl
    simp [WakingAsks] at hAsk
  · rintro rfl
    simp [WakingAsks] at hAsk

/- A start takes the modem up in no exclusive stage. -/
theorem always_owns_init
    {slot : Option (List UInt8)}
    {safeMode : Bool}
    (hHeld : ∀ stored, Holds slot stored → stored.Recorded) :
    u.init.Always (Course.goes s) (fun _ => True)
      (fun next c' => next.Owns c') (.fresh slot safeMode) := by
  have hKept :
      ∀ c question answer c', WakingAsks slot question →
        c.updateMode = false ∧ ¬ c.StartedInstall →
        Course.goes s c question answer c' →
        c'.updateMode = false ∧ ¬ c'.StartedInstall := by
    intro c question answer c' hAsk hNone hGoes
    have hNeutral := neutral_of_waking hAsk
    rw [Course.updateMode_of_goes hGoes hNeutral.mode,
      Course.startedInstall_of_goes hNeutral.install hGoes]
    exact hNone
  have hStart :
      (Course.fresh slot safeMode).updateMode = false ∧
        ¬ (Course.fresh slot safeMode).StartedInstall := by
    refine ⟨rfl, ?_⟩
    rintro ⟨reply, hMem⟩
    cases hMem
  apply (always_init hKept hStart).mono
  · intro c _
    trivial
  · intro next c' hNext
    rcases hNext with ⟨⟨hTime, hWakes⟩, hMode, hNone⟩
    have hStage := (recorded_of_wakes hHeld hWakes).stage
    constructor
    · intro hExclusive
      change next.checkpoint.stage ∈ _ at hExclusive
      simp only [Checkpoint.storedStages, List.mem_cons,
        List.not_mem_nil, or_false] at hStage
      rcases hStage with hStage | hStage | hStage | hStage |
          hStage | hStage <;>
        rw [hStage] at hExclusive <;>
        simp [Stage.exclusive] at hExclusive
    · intro _ hEntered
      rw [hTime] at hEntered
      exact absurd rfl hEntered
    · intro _
      rw [hMode]
      exact iff_of_false Bool.false_ne_true hNone

end Updater

namespace Life

/- An updater owns its modem between any two calls. -/
theorem Lived.owns
    {s : Setting}
    {l : Life}
    (hLived : l.Lived s) :
    ∀ u ∈ l.updater, u.Owns l.course := by
  refine
    (Lived.invariant (fun _ => True) Updater.Owns
      ?_ ?_ ?_ hLived).2
  · intro slot safeMode hUnreadable
    trivial
  · intro l slot safeMode policy server hLived _ hSurvives
    have hHeld := hLived.recorded hSurvives
    exact ⟨trivial, Updater.always_owns_init hHeld⟩
  · intro call u c _ hOwns
    exact Updater.always_owns_call call hOwns

/-
  Throughout the life of a device, the updater owns the modem in
  each exclusive stage. While it waits for the end of an install
  it does so if and only if the install was started in the same
  boot: a wait that is taken up after a reset goes on beside the
  supervision of the link.
-/
theorem modem_owned
    {s : Setting}
    {l : Life}
    (hLived : l.Lived s) :
    ∀ u ∈ l.updater,
      (u.stage ∈ Stage.exclusive → l.course.Owned) ∧
        (u.stage = .installWaiting →
          (l.course.Owned ↔ l.course.StartedInstall)) := by
  intro u hMem
  have hOwns := hLived.owns u hMem
  rw [Course.owned_iff_updateMode]
  exact ⟨hOwns.taken, hOwns.waiting⟩

/- A smooth run owns the modem while it downloads. -/
theorem modem_owned_on_smooth_run :
    (smooth 9).Lived .board ∧
      (smooth 9).updater.map Updater.stage =
        some .downloadReady ∧
      (smooth 9).course.Owned := by
  have hLived : (smooth 9).Lived .board := lived_smooth 9
  have hStage :
      (smooth 9).updater.map Updater.stage =
        some .downloadReady := by
    decide +kernel
  rcases Option.map_eq_some_iff.mp hStage with ⟨u, hMem, hReady⟩
  refine ⟨hLived, hStage, (modem_owned hLived u hMem).1 ?_⟩
  rw [hReady]
  simp [Stage.exclusive]

/-
  The modem is not owned whenever an updater waits for the end
  of an install: after a reset it is not.
-/
theorem not_owned_after_reset :
    ¬ ∀ l : Life, l.Lived .board →
      ∀ u ∈ l.updater,
        u.stage ∈ .installWaiting :: Stage.exclusive →
          l.course.updateMode = true := by
  intro hAlways
  have hLived :
      (Act.perform .smooth (smooth 14) (.boots true)).Lived
        .board :=
    (lived_smooth 14).perform _
  have hMoment :
      (Act.perform .smooth (smooth 14)
        (.boots true)).updater.map Updater.stage =
          some .installWaiting ∧
        (Act.perform .smooth (smooth 14)
          (.boots true)).course.updateMode = false := by
    decide +kernel
  rcases hMoment with ⟨hStage, hMode⟩
  rcases Option.map_eq_some_iff.mp hStage with ⟨u, hMem, hWaiting⟩
  have hOwned := hAlways _ hLived u hMem (by simp [hWaiting])
  rw [hMode] at hOwned
  cases hOwned

end Life

end Fota
