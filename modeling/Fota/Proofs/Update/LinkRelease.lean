import Fota.Proofs.Board.Serving
import Fota.Proofs.Update.Rehearsal
import Fota.Proofs.Update.Turns

/-
  This file shows that an updater which is at rest, or has not
  taken the modem yet, or has come back to the cloud holds no
  data link down. The update mode is switched on where the modem
  is taken, and off at the first tick that goes back to the
  cloud and at the last tick of a run.

  Key definitions include:
    * `Stage.released`
    * `Update.Course.Released`
    * `Updater.Releases`

  The main statements are `Updater.always_releases_work` and
  `Life.link_released`.
-/

namespace Fota

open Update (Answer Course Question Setting Talk)

------------------------------------------------------------
-- Released Links
------------------------------------------------------------

/- The stages in which the link belongs to its supervision. -/
def Stage.released : List Stage :=
  [idle, qualifyFlags, qualifyModemOn, qualifyRetry,
    setupCloudConnect, setupCloudConnecting,
    setupCloudConnected, downloadCloudDisconnect,
    finishedCloudConnected]

/-
  The stages after whose work the mode may be off: it is off
  before, or the work switches it off.
-/
theorem Stage.released_of_successor
    {stage target : Stage}
    (hMem : target ∈ stage.successors)
    (hTarget : target ∈ released) :
    stage ∈
      .finishedCloudConnecting :: .finishedIdle :: released := by
  revert target
  cases stage <;> simp [successors, released]

namespace Update.Course

variable
  {s : Setting}
  {c c' : Course}
  {question : Question}
  {answer : Answer question}

/-
  The update mode is off, as it is on each device that serves
  the course, and the driver of the device holds no link down.
-/
def Released
    (c : Course) : Prop :=
  c.updateMode = false ∧
    ∀ (σ : Type) [Hardware σ] (d : Device σ), d.Serves c →
      d.link.updateMode = false ∧ d.sara.suppressed = false

/- The link is released when the update mode is off. -/
theorem released_of_updateMode
    (hOff : c.updateMode = false) :
    c.Released := by
  refine ⟨hOff, ?_⟩
  intro σ _ d hServes
  have hTied := hServes.tied
  rw [hOff] at hTied
  exact ⟨hTied.updateMode, hTied.suppressed⟩

/- The mode stays off unless it is switched on. -/
theorem off_of_goes
    (hQuestion : question ≠ .setUpdateMode true)
    (hOff : c.updateMode = false)
    (hGoes : goes s c question answer c') :
    c'.updateMode = false := by
  rcases hGoes with ⟨lines, hTruthful, hAllowed, rfl⟩
  rw [updateMode_note, updateMode_hear, hOff]
  cases question with
  | setUpdateMode enabled =>
      cases enabled with
      | true => exact absurd rfl hQuestion
      | false => rfl
  | _ => rfl

/- Switching the mode off releases the link. -/
theorem off_of_setUpdateMode
    {answer : Answer (.setUpdateMode false)}
    (hGoes : goes s c (.setUpdateMode false) answer c') :
    c'.updateMode = false := by
  rcases hGoes with ⟨lines, hTruthful, hAllowed, rfl⟩
  rw [updateMode_note]
  rfl

end Update.Course

------------------------------------------------------------
-- Releasing Updaters
------------------------------------------------------------

namespace Updater

variable
  {s : Setting}
  {u next : Updater}
  {c c' : Course}
  {now : Instant}
  {entered : Bool}

/-
  Between calls, the mode is off in the released stages. It also
  is once the updater has begun to wait for the cloud at the end
  of a run.
-/
structure Releases
    (u : Updater)
    (c : Course) : Prop where
  rest : u.stage ∈ Stage.released → c.updateMode = false
  back :
    u.stage = .finishedCloudConnecting →
      u.time.enteredAt ≠ none → c.updateMode = false

/- While the mode is off, any updater releases the link. -/
theorem releases_of_off
    (hOff : c.updateMode = false) :
    u.Releases c :=
  ⟨fun _ => hOff, fun _ _ => hOff⟩

/- An updater that holds the link has nothing to release yet. -/
theorem releases_of_stage
    (hRest : u.stage ∉ Stage.released)
    (hBack : u.stage ≠ .finishedCloudConnecting) :
    u.Releases c :=
  ⟨fun hStage => absurd hStage hRest,
    fun hStage => absurd hStage hBack⟩

/- Only taking the modem switches the mode on. -/
theorem spares_mode_of_mayAsk
    {stage : Stage}
    {question : Question}
    (hStage : stage ≠ .downloadCloudDisconnect)
    (hAsk : u.MayAsk entered stage question) :
    question ≠ .setUpdateMode true := by
  rintro rfl
  cases stage with
  | downloadCloudDisconnect =>
      exact hStage rfl
  | installStarting =>
      cases entered <;> simp [MayAsk, storing] at hAsk
  | _ =>
      simp [MayAsk, storing] at hAsk

------------------------------------------------------------
-- Work
------------------------------------------------------------

/-
  Once the mode is off, it stays off throughout a dialogue that
  never switches it on.
-/
theorem always_off_of_asks
    {d : Talk Updater}
    (hSpares :
      d.Asks (fun question => question ≠ .setUpdateMode true))
    (hOff : c.updateMode = false) :
    d.Always (Course.goes s) (fun _ => True)
      (fun next c' => next.Releases c') c := by
  have hKept :
      ∀ c question answer c',
        question ≠ .setUpdateMode true →
        c.updateMode = false →
        Course.goes s c question answer c' →
        c'.updateMode = false := by
    intro c question answer c' hQuestion hOff hGoes
    exact Course.off_of_goes hQuestion hOff hGoes
  apply (Dialogue.always_of_asks hSpares
    (Dialogue.yields_true d) hKept hOff).mono
  · intro c _
    trivial
  · intro next c' hNext
    exact releases_of_off hNext.2

/- The first tick that goes back to the cloud gives way. -/
theorem always_finishedCloudConnecting :
    (u.finishedCloudConnecting now true).Always
      (Course.goes s) (fun _ => True)
      (fun next c' => next.Releases c') c := by
  unfold finishedCloudConnecting giveModemBack
  simp only [Talk.setUpdateMode, if_true, Dialogue.ask_bind,
    Dialogue.done_bind, Dialogue.always_ask]
  intro _ c₁ hSet
  refine ⟨trivial, ?_⟩
  apply always_off_of_asks _ (Course.off_of_setUpdateMode hSet)
  simp

/- The last tick of a run gives way. -/
theorem always_finishedIdle :
    u.finishedIdle.Always (Course.goes s) (fun _ => True)
      (fun next c' => next.Releases c') c := by
  unfold finishedIdle
  simp only [Talk.setUpdateMode, Dialogue.ask_bind,
    Dialogue.done_bind, Dialogue.always_ask]
  intro _ c₁ hSet
  refine ⟨trivial, ?_⟩
  apply always_off_of_asks _ (Course.off_of_setUpdateMode hSet)
  simp [checkpointAt, persist, Updater.show]

/- Where the modem is taken, there is nothing left to release. -/
theorem always_takeModem_releases :
    (u.takeModem now).Always (Course.goes s) (fun _ => True)
      (fun next c' => next.Releases c') c := by
  unfold takeModem
  simp only [Talk.setUpdateMode, Talk.networkDisconnect,
    Dialogue.pure_eq_done, Dialogue.ask_bind,
    Dialogue.done_bind, Dialogue.always_ask,
    Dialogue.always_done]
  intro _ c₁ _
  refine ⟨trivial, ?_⟩
  intro _ c₂ _
  refine ⟨trivial, ?_⟩
  apply releases_of_stage <;> simp [Stage.released]

/- Until the modem is taken, the mode stays off. -/
theorem always_cloudDisconnect_releases
    (hOff : c.updateMode = false) :
    (u.downloadCloudDisconnect now entered).Always
      (Course.goes s) (fun _ => True)
      (fun next c' => next.Releases c') c := by
  unfold downloadCloudDisconnect
  simp [always_takeModem_releases]
  refine ⟨fun hEntered => ⟨?_, ?_⟩, ?_⟩
  · intro c₁ hLooked c₂ hAgain hEarly
    have hOff₁ := Course.off_of_goes (by simp) hOff hLooked
    exact
      releases_of_off (Course.off_of_goes (by simp) hOff₁ hAgain)
  · intro c₁ hLooked _ c₂ hEnded c₃ hAgain hEarly
    have hOff₁ := Course.off_of_goes (by simp) hOff hLooked
    have hOff₂ := Course.off_of_goes (by simp) hOff₁ hEnded
    exact
      releases_of_off (Course.off_of_goes (by simp) hOff₂ hAgain)
  · intro hLater c₁ hLooked hEarly
    exact
      releases_of_off (Course.off_of_goes (by simp) hOff hLooked)

/- What holds the link leads to what need not release it. -/
theorem releases_of_edge
    (hRest : u.stage ∉ Stage.released)
    (hBack : u.stage ≠ .finishedCloudConnecting)
    (hIdle : u.stage ≠ .finishedIdle)
    (hNext : u.Edge next) :
    next.Releases c := by
  rcases hNext with
    ⟨hSame, _⟩ | ⟨hMem, hTime⟩ | ⟨hModem, _⟩
  · rw [← hSame] at hRest hBack
    exact releases_of_stage hRest hBack
  · constructor
    · intro hTarget
      have hFrom := Stage.released_of_successor hMem hTarget
      simp [hRest, hBack, hIdle] at hFrom
    · intro _ hEntered
      rw [hTime] at hEntered
      exact absurd rfl hEntered
  · rw [hModem] at hRest
    simp [Stage.released] at hRest

/-
  Most work either finds the mode off and leaves it off, or
  leads to no stage that needs it off.
-/
theorem always_releases_spared
    (hCloud : u.stage ≠ .downloadCloudDisconnect)
    (hBack :
      u.stage = .finishedCloudConnecting → c.updateMode = false)
    (hIdle : u.stage ≠ .finishedIdle)
    (hRest : u.stage ∈ Stage.released → c.updateMode = false) :
    (u.work now entered).Always (Course.goes s) (fun _ => True)
      (fun next c' => next.Releases c') c := by
  by_cases hOff : c.updateMode = false
  · apply always_off_of_asks _ hOff
    apply work_asks.mono
    intro question hAsk
    exact spares_mode_of_mayAsk hCloud hAsk
  · have hNotRest : u.stage ∉ Stage.released :=
      fun hStage => hOff (hRest hStage)
    have hNotBack : u.stage ≠ .finishedCloudConnecting :=
      fun hStage => hOff (hBack hStage)
    apply (Dialogue.always_of_asks (Dialogue.asks_true _)
      work_yields (fun _ _ _ _ _ _ _ => trivial) trivial).mono
    · intro c hTrue
      exact hTrue
    · intro next c' hNext
      exact
        releases_of_edge hNotRest hNotBack hIdle
          (edge_of_mayBecome hNext.1)

/- Work leaves a released link to an updater that needs none. -/
theorem always_releases_work
    (hReleases : u.Releases c)
    (now : Instant) :
    ((u.entering now).work now u.time.enteredAt.isNone).Always
      (Course.goes s) (fun _ => True)
      (fun next c' => next.Releases c') c := by
  have hSame : (u.entering now).stage = u.stage := rfl
  by_cases hCloud : u.stage = .downloadCloudDisconnect
  · have hOff : c.updateMode = false := by
      apply hReleases.rest
      rw [hCloud]
      simp [Stage.released]
    unfold work
    rw [hSame, hCloud]
    exact always_cloudDisconnect_releases hOff
  · by_cases hIdle : u.stage = .finishedIdle
    · unfold work
      rw [hSame, hIdle]
      exact always_finishedIdle
    · by_cases hFirst :
          u.stage = .finishedCloudConnecting ∧
            u.time.enteredAt = none
      · unfold work
        rw [hSame, hFirst.1, hFirst.2]
        exact always_finishedCloudConnecting
      · apply always_releases_spared
        · exact hCloud
        · intro hBack
          apply hReleases.back hBack
          intro hNone
          exact hFirst ⟨hBack, hNone⟩
        · exact hIdle
        · exact hReleases.rest

------------------------------------------------------------
-- Calls
------------------------------------------------------------

/- A request is granted at rest, where the mode is off. -/
theorem Releases.request
    (hReleases : u.Releases c)
    (hNext : u.Requested next) :
    next.Releases c := by
  by_cases hIdle : u.stage = .idle
  · apply releases_of_off
    apply hReleases.rest
    rw [hIdle]
    simp [Stage.released]
  · rcases hNext with
      rfl | ⟨hReady, _⟩ | ⟨hStage, _⟩ | ⟨_, _, hPath⟩
    · exact hReleases
    · exact absurd hReady.2.1 hIdle
    · exact absurd hStage hIdle
    · rcases hPath with ⟨hReady, _⟩ | ⟨hStage, _⟩
      · exact absurd hReady.2.1 hIdle
      · exact absurd hStage hIdle

/- A link stays released unless the mode is switched on. -/
theorem Releases.goes
    {question : Question}
    {answer : Answer question}
    (hReleases : u.Releases c)
    (hQuestion : question ≠ .setUpdateMode true)
    (hGoes : Course.goes s c question answer c') :
    u.Releases c' := by
  constructor
  · intro hRest
    exact Course.off_of_goes hQuestion (hReleases.rest hRest) hGoes
  · intro hBack hEntered
    exact
      Course.off_of_goes hQuestion
        (hReleases.back hBack hEntered) hGoes

/- A call leaves a released link to an updater that needs none. -/
theorem always_releases_call
    (call : Call)
    (hReleases : u.Releases c) :
    (call.carryOut u).Always (Course.goes s) (fun _ => True)
      (fun next c' => next.Releases c') c := by
  have hKept :
      ∀ c question answer c', question ∈ quietQuestions →
        u.Releases c → Course.goes s c question answer c' →
        u.Releases c' := by
    intro c question answer c' hMem hReleases hGoes
    apply hReleases.goes _ hGoes
    rintro rfl
    simp [quietQuestions, requestQuestions] at hMem
  apply always_call call hKept
  · intro c _
    trivial
  · intro next c hNext hReleases
    exact hReleases.request hNext
  · intro cooldown c hReleases
    exact ⟨hReleases.rest, hReleases.back⟩
  · intro now c hReleases
    exact always_releases_work hReleases now
  · exact hReleases

/- A start leaves the mode off, as it is after power-up. -/
theorem always_releases_init
    (slot : Option (List UInt8))
    (safeMode : Bool) :
    u.init.Always (Course.goes s) (fun _ => True)
      (fun next c' => next.Releases c')
      (.fresh slot safeMode) := by
  have hKept :
      ∀ c question answer c', WakingAsks slot question →
        c.updateMode = false →
        Course.goes s c question answer c' →
        c'.updateMode = false := by
    intro c question answer c' hAsk hOff hGoes
    apply Course.off_of_goes _ hOff hGoes
    rintro rfl
    simp [WakingAsks] at hAsk
  apply (always_init hKept rfl).mono
  · intro c _
    trivial
  · intro next c' hNext
    exact releases_of_off hNext.2

end Updater

namespace Life

/-
  Whatever is asked of an updater in a boot and whatever fails,
  the data link is released whenever the updater is at rest, has
  not taken the modem yet, or is back at the cloud.
-/
theorem link_released
    {s : Setting}
    {turns : List Turn}
    {l : Life}
    (hRun : l.Run s turns) :
    ∀ u ∈ l.updater, u.stage ∈ Stage.released →
      l.course.Released := by
  intro u hMem hStage
  have hReleases :=
    Run.invariant Updater.Releases
      (fun slot safeMode _ _ =>
        Updater.always_releases_init slot safeMode)
      (fun call _ _ hReleases =>
        Updater.always_releases_call call hReleases)
      hRun u hMem
  exact Course.released_of_updateMode (hReleases.rest hStage)

/-
  A smooth run that takes the modem, and then fails to power it
  off, gives it back before it comes to rest.
-/
theorem link_released_on_smooth_run :
    ∃ turns, (smooth 19).Run .board turns ∧
      (smooth 18).course.updateMode = true ∧
      (smooth 19).updater.map Updater.stage = some .idle ∧
      (smooth 19).course.Released := by
  have hStage :
      (smooth 18).course.updateMode = true ∧
        (smooth 19).updater.map Updater.stage =
          some .idle := by
    decide +kernel
  rcases Option.map_eq_some_iff.mp hStage.2 with ⟨u, hMem, hIdle⟩
  rcases (lived_smooth 19).exists_run hMem with ⟨turns, hRun⟩
  refine ⟨turns, hRun, hStage.1, hStage.2, ?_⟩
  apply link_released hRun u hMem
  rw [hIdle]
  simp [Stage.released]

end Life

end Fota
