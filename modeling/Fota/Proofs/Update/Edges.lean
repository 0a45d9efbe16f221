import Fota.Proofs.Update.Questions

/-
  This file states where a tick may lead. For each stage it
  lists the updaters that a tick may leave behind, with the
  time that has passed where the stage looks at it, and
  whatever the surroundings answer.

  Key definitions include:
    * `Updater.waits`
    * `Updater.publishRefused`
    * `Updater.setupRefused`
    * `Updater.attemptLost`
    * `Updater.exitDelayed`
    * `Updater.MayBecome`
    * `Stage.successors`

  The main statements are `Updater.work_yields` and
  `Updater.edge_of_mayBecome`.
-/

namespace Fota

open Update (Talk)

namespace Updater

------------------------------------------------------------
-- Edges
------------------------------------------------------------

/- What a look without result leads to, by the time spent. -/
def waits
    (now : Instant)
    (timeout : UInt32)
    (u late early : Updater) : Updater :=
  if u.TimedOut now timeout then late else early

/- The updater after a start that could not be published. -/
def publishRefused
    (u : Updater) : Updater :=
  let count := Retries.more u.retries.publishStart
  let u := { u with retries.publishStart := count }
  if u.policy.publishStartRetryMax < count then
    u.fail .publishStart .finishedIdle
  else
    u

/- The updater after a transfer that could not be set up. -/
def setupRefused
    (now : Instant)
    (u : Updater) : Updater :=
  let count := Retries.more u.retries.httpsSetup
  let u := { u with retries.httpsSetup := count }
  if u.policy.httpsSetupRetryMax < count then
    u.fail .httpsSetup .finishedIdle
  else
    u.cool now u.policy.httpsSetupRetryCooldown

/- The updater after an attempt that has failed. -/
def attemptLost
    (u : Updater) : Updater :=
  let count := Retries.more u.retries.download
  let u :=
    { u with
      time.pendingSince := none
      retries.download := count }
  if u.policy.downloadAttemptsMax ≤ count then
    u.fail .downloadRetryMax .finishedIdle
  else
    u

/- The updater after it has waited for the cloud in vain. -/
def exitDelayed
    (u : Updater) : Updater :=
  let count := Retries.more u.retries.cloudConnectExit
  let u := { u with retries.cloudConnectExit := count }
  if u.policy.cloudConnectExitRetryMax < count then
    u.fail .cloudConnectOnExitTimeout .finishedIdle
  else
    u.moveTo .finishedPowerOff

/- The updater that is about to replace a version. -/
def replacing
    (version : UInt32)
    (u : Updater) : Updater :=
  { u with
    checkpoint.replaced :=
      if version = 0 then u.checkpoint.installed else version }

/- What a look at the modem after an install leads to. -/
def judged
    (now : Instant)
    (version : UInt32)
    (complete : Bool)
    (u : Updater) : Updater :=
  match judge version complete u.checkpoint with
  | .unchanged =>
      (u.withVersion version).fail .sameVersion
        .finishedPowerOff
  | .installed =>
      ((u.withVersion version).setStatus .success).moveTo
        .finishedPowerOff
  | .undecided =>
      u.waits now u.policy.installFinishTimeout
        (u.fail .installTimeout .finishedPowerOff)
        (u.cool now u.policy.installProbePoll)

/- The updater that has taken the modem. -/
def owning
    (now : Instant)
    (u : Updater) : Updater :=
  (u.cool now u.policy.cloudDisconnectCooldown).moveTo
    .downloadCellDisconnecting

/- What a tick that works on a stage may leave behind. -/
def MayBecome
    (now : Instant)
    (entered : Bool)
    (stage : Stage)
    (u next : Updater) : Prop :=
  match stage with
  | .idle =>
      next = { u with checkpoint.ownPath := false } ∨
        next = u.setStatus .idle
  | .qualifyFlags =>
      next = u.moveTo .idle ∨
        next =
          { u with shown := .failed .qualifyFlags }.moveTo
            .idle ∨
        next = u.moveTo .qualifyModemOn ∨
        next = u.moveTo .qualifyRetry
  | .qualifyModemOn =>
      next = u ∨
        next = u.moveTo .qualifyRetry ∨
        ∃ version, version ≠ 0 ∧
          match u.offered? version with
          | none => next = (u.refused version).moveTo .idle
          | some offer =>
              next = offer.moveTo .setupCloudConnect ∨
                next = offer
  | .qualifyRetry => next = u.qualifyRetry now
  | .setupCloudConnect => next = u.moveTo .setupCloudConnecting
  | .setupCloudConnecting =>
      next = u.moveTo .setupCloudConnected ∨
        next =
          u.waits now u.policy.cloudConnectTimeout
            (u.fail .cloudConnectOnEntryTimeout .finishedIdle)
            u
  | .setupCloudConnected =>
      next =
          ((u.setStatus .downloading).cool now
            u.policy.publishStartCooldown).moveTo
              .downloadCloudDisconnect ∨
        next = u.publishRefused
  | .downloadCloudDisconnect =>
      next = u.owning now ∨
        next =
          u.waits now u.policy.cloudDisconnectTimeout
            (u.owning now) u
  | .downloadCellDisconnecting =>
      next = u.moveTo .downloadCellConnecting ∨
        next =
          u.waits now u.policy.cellularDisconnectTimeout
            (u.fail .setupCellularDisconnectTimeout
              .finishedIdle)
            u
  | .downloadCellConnecting =>
      next = u.moveTo .downloadHttpsSetup ∨
        next =
          u.waits now u.policy.cellularConnectTimeout
            (u.fail .cellularConnectTimeout .finishedIdle)
            (u.cool now u.policy.cellularConnectPoll)
  | .downloadHttpsSetup =>
      next = u.moveTo .downloadReady ∨
        next = u.setupRefused now
  | .downloadReady =>
      match u.time.pendingSince with
      | none =>
          next = { u with time.pendingSince := some now } ∨
            next = u.attemptLost
      | some since =>
          next = u.moveTo .installCellDisconnecting ∨
            next = u.attemptLost ∨
            ¬ since.Elapsed u.policy.downloadTimeout now ∧
              next = u
  | .installCellDisconnecting =>
      next = u.moveTo .installStarting ∨
        next =
          u.waits now u.policy.cellularDisconnectTimeout
            (u.fail .installCellularDisconnectTimeout
              .finishedIdle)
            u
  | .installStarting =>
      if entered then
        ∃ version,
          next =
              (u.replacing version).fail .installAtError
                .finishedPowerOff ∨
            next =
              (u.replacing version).cool now
                u.policy.installStartPoll
      else
        next = (u.setStatus .updating).moveTo .installWaiting ∨
          next =
            u.waits now u.policy.installStartTimeout
              (u.fail .startInstallTimeout .finishedPowerOff)
              (u.cool now u.policy.installStartPoll)
  | .installWaiting =>
      if entered then
        next = u.cool now u.policy.installProbePoll
      else
        ∃ version complete, next = u.judged now version complete
  | .finishedPowerOff => next = u.moveTo .finishedPoweringOff
  | .finishedPoweringOff =>
      next = u.moveTo .finishedCloudConnecting ∨
        next =
          u.waits now u.policy.powerOffTimeout
            (u.fail .powerOffTimeout .finishedIdle) u
  | .finishedCloudConnecting =>
      next = u.moveTo .finishedCloudConnected ∨
        next =
          u.waits now u.policy.cloudConnectTimeout
            u.exitDelayed u
  | .finishedCloudConnected =>
      next = u.moveTo .finishedIdle ∨
        next = u.fail .publishResult .finishedIdle
  | .finishedIdle =>
      next =
        { u with
          shown := u.status
          checkpoint.availability := .unknown
          checkpoint.ownPath := false }.moveTo .idle

------------------------------------------------------------
-- Edges of a Stage
------------------------------------------------------------

variable
  {u : Updater}
  {now : Instant}
  {entered : Bool}

theorem waits_late
    {timeout : UInt32}
    {late early : Updater}
    (hLate : u.TimedOut now timeout) :
    u.waits now timeout late early = late :=
  if_pos hLate

theorem waits_early
    {timeout : UInt32}
    {late early : Updater}
    (hEarly : ¬ u.TimedOut now timeout) :
    u.waits now timeout late early = early :=
  if_neg hEarly

theorem idle_yields :
    u.idle.Yields (u.MayBecome now entered .idle) := by
  unfold idle
  simp [MayBecome]

theorem qualifyFlags_yields :
    u.qualifyFlags.Yields
      (u.MayBecome now entered .qualifyFlags) := by
  unfold qualifyFlags isWanted Updater.show
  simp [MayBecome]
  intro power hPower answer
  cases answer <;> simp [MayBecome]

theorem qualifyVersion_yields
    {version : UInt32}
    (hVersion : version ≠ 0) :
    (u.qualifyVersion version).Yields
      (u.MayBecome now entered .qualifyModemOn) := by
  rw [qualifyVersion_eq]
  cases hOffered : u.offered? version with
  | none =>
      simp only [Dialogue.pure_eq_done, Dialogue.yields_done]
      right; right
      refine ⟨version, hVersion, ?_⟩
      rw [hOffered]
  | some offer =>
      have hOffer :
          ∀ next,
            next = offer.moveTo .setupCloudConnect ∨
              next = offer →
            u.MayBecome now entered .qualifyModemOn next := by
        intro next hNext
        right; right
        refine ⟨version, hVersion, ?_⟩
        rw [hOffered]
        exact hNext
      simp [persist, hOffer]

theorem qualifyModemOn_yields :
    (u.qualifyModemOn now).Yields
      (u.MayBecome now entered .qualifyModemOn) := by
  unfold qualifyModemOn
  simp only [Talk.networkPower, Dialogue.ask_bind,
    Dialogue.done_bind, Dialogue.yields_ask,
    Dialogue.yields_ite, Dialogue.yields_bind]
  intro power
  constructor
  · intro hOn
    apply Dialogue.Yields.of_forall
    intro version
    constructor
    · intro hUnread
      simp [MayBecome]
    · intro hVersion
      exact qualifyVersion_yields hVersion
  · intro hOff
    simp [MayBecome]

theorem setupCloudConnect_yields :
    u.setupCloudConnect.Yields
      (u.MayBecome now entered .setupCloudConnect) := by
  unfold setupCloudConnect
  simp [MayBecome]

theorem setupCloudConnecting_yields :
    (u.setupCloudConnecting now).Yields
      (u.MayBecome now entered .setupCloudConnecting) := by
  unfold setupCloudConnecting
  simp [MayBecome, waits]

theorem setupCloudConnected_yields :
    (u.setupCloudConnected now).Yields
      (u.MayBecome now entered .setupCloudConnected) := by
  unfold setupCloudConnected
  simp [MayBecome, publishRefused]
  left; rfl

theorem takeModem_yields :
    (u.takeModem now).Yields
      (fun next => next = u.owning now) := by
  unfold takeModem owning
  simp

theorem downloadCloudDisconnect_yields :
    (u.downloadCloudDisconnect now entered).Yields
      (u.MayBecome now entered .downloadCloudDisconnect) := by
  have hTaken :
      (u.takeModem now).Yields
        (u.MayBecome now entered .downloadCloudDisconnect) := by
    apply takeModem_yields.mono
    intro next hNext
    exact Or.inl hNext
  have hEarly :
      ¬ u.TimedOut now u.policy.cloudDisconnectTimeout →
        u.MayBecome now entered .downloadCloudDisconnect u := by
    intro hEarly
    right
    rw [waits_early hEarly]
  unfold downloadCloudDisconnect
  simp [hTaken]
  exact ⟨fun _ => hEarly, fun _ => hEarly⟩

theorem downloadCellDisconnecting_yields :
    (u.downloadCellDisconnecting now).Yields
      (u.MayBecome now entered
        .downloadCellDisconnecting) := by
  unfold downloadCellDisconnecting
  simp [MayBecome, waits]

theorem downloadCellConnecting_yields :
    (u.downloadCellConnecting now entered).Yields
      (u.MayBecome now entered .downloadCellConnecting) := by
  unfold downloadCellConnecting
  simp
  constructor
  · intro hEntered
    apply Dialogue.Yields.of_forall
    intro active
    cases active <;> simp [MayBecome, waits]
  · intro hLater
    apply Dialogue.Yields.of_forall
    intro active
    cases active <;> simp [MayBecome, waits]

theorem downloadHttpsSetup_yields :
    (u.downloadHttpsSetup now).Yields
      (u.MayBecome now entered .downloadHttpsSetup) := by
  unfold downloadHttpsSetup
  rw [Dialogue.yields_bind]
  apply Dialogue.Yields.of_forall
  intro outcome
  simp [MayBecome, setupRefused]

theorem attemptFailed_yields :
    u.attemptFailed.Yields (fun next => next = u.attemptLost) := by
  unfold attemptFailed
  simp only [Talk.count, Dialogue.ask_bind, Dialogue.done_bind,
    Dialogue.yields_ask, Dialogue.yields_bind]
  intro _
  apply Dialogue.Yields.of_forall
  intro _
  simp [attemptLost]

/- Beginning an attempt starts the wait for it, or loses it. -/
theorem beginAttempt_yields :
    (u.beginAttempt now).Yields (fun next =>
      next = { u with time.pendingSince := some now } ∨
        next = u.attemptLost) := by
  unfold beginAttempt
  simp only [Dialogue.yields_bind]
  apply Dialogue.Yields.of_forall
  intro _
  apply Dialogue.Yields.of_forall
  intro _
  simp only [Talk.clearCompletion, Talk.count,
    Dialogue.yields_ask, Dialogue.yields_done]
  intro _ _
  apply Dialogue.Yields.of_forall
  intro outcome
  rw [Dialogue.yields_ite]
  constructor
  · intro hStarted
    simp
  · intro hRefused
    apply attemptFailed_yields.mono
    intro next hNext
    exact Or.inr hNext

theorem downloadReady_yields :
    (u.downloadReady now).Yields
      (u.MayBecome now entered .downloadReady) := by
  have hFailed :
      u.attemptFailed.Yields
        (u.MayBecome now entered .downloadReady) := by
    apply attemptFailed_yields.mono
    intro next hNext
    simp only [MayBecome]
    cases u.time.pendingSince with
    | none => exact Or.inr hNext
    | some since => exact Or.inr (Or.inl hNext)
  unfold downloadReady
  cases hPending : u.time.pendingSince with
  | none =>
      apply beginAttempt_yields.mono
      intro next hNext
      simp only [MayBecome, hPending]
      exact hNext
  | some since =>
      simp only [Talk.takeCompletion, Dialogue.ask_bind,
        Dialogue.done_bind, Dialogue.yields_ask]
      intro completion
      cases completion with
      | none =>
          rw [Dialogue.yields_ite]
          refine ⟨fun _ => hFailed, ?_⟩
          intro hWaiting
          simp only [Dialogue.pure_eq_done,
            Dialogue.yields_done, MayBecome, hPending]
          exact Or.inr (Or.inr ⟨hWaiting, trivial⟩)
      | some completion =>
          simp [hFailed, MayBecome, hPending]

theorem installCellDisconnecting_yields :
    (u.installCellDisconnecting now entered).Yields
      (u.MayBecome now entered
        .installCellDisconnecting) := by
  unfold installCellDisconnecting
  simp [MayBecome, waits]

theorem beginInstall_yields :
    (u.beginInstall now).Yields (fun next =>
      ∃ version,
        next =
            (u.replacing version).fail .installAtError
              .finishedPowerOff ∨
          next =
            (u.replacing version).cool now
              u.policy.installStartPoll) := by
  unfold beginInstall
  simp only [Dialogue.yields_bind]
  apply Dialogue.Yields.of_forall
  intro version
  simp only [Talk.clearProgress, Dialogue.yields_ask,
    Dialogue.yields_done]
  intro _
  apply Dialogue.Yields.of_forall
  intro outcome
  rw [Dialogue.yields_ite]
  constructor
  · intro hError
    rw [Dialogue.pure_eq_done, Dialogue.yields_done]
    exact ⟨version, Or.inl rfl⟩
  · intro hStarted
    rw [Dialogue.pure_eq_done, Dialogue.yields_done]
    exact ⟨version, Or.inr rfl⟩

theorem installStarting_yields :
    (u.installStarting now entered).Yields
      (u.MayBecome now entered .installStarting) := by
  unfold installStarting
  rw [Dialogue.yields_ite]
  constructor
  · intro hEntered
    apply beginInstall_yields.mono
    intro next hNext
    simp only [MayBecome, if_pos hEntered]
    exact hNext
  · intro hLater
    rw [Dialogue.yields_bind]
    apply Dialogue.Yields.of_forall
    intro outcome
    simp [checkpointAt, persist]
    constructor
    · intro hSilent
      simp only [MayBecome, if_neg hLater]
      exact Or.inl rfl
    · intro hAlive
      simp only [MayBecome, if_neg hLater]
      exact Or.inr rfl

theorem installWaiting_yields :
    (u.installWaiting now entered).Yields
      (u.MayBecome now entered .installWaiting) := by
  unfold installWaiting
  rw [Dialogue.yields_ite]
  constructor
  · intro hEntered
    simp [MayBecome, hEntered]
  · intro hLater
    have hJudged :
        ∀ version complete,
          u.MayBecome now entered .installWaiting
            (u.judged now version complete) := by
      intro version complete
      simp only [MayBecome, if_neg hLater]
      exact ⟨version, complete, rfl⟩
    unfold pollInstall
    simp only [Talk.count, Talk.progress, Dialogue.ask_bind,
      Dialogue.done_bind, Dialogue.yields_ask]
    intro _ progress
    rw [Dialogue.yields_bind]
    apply Dialogue.Yields.of_forall
    intro version
    have hPolled := hJudged version (isComplete progress)
    unfold judged at hPolled
    cases hVerdict :
        judge version (isComplete progress) u.checkpoint with
    | unchanged =>
        rw [hVerdict] at hPolled
        simp only [Dialogue.pure_eq_done, Dialogue.yields_done]
        exact hPolled
    | installed =>
        rw [hVerdict] at hPolled
        simp only [Dialogue.pure_eq_done, Dialogue.yields_done]
        exact hPolled
    | undecided =>
        rw [hVerdict] at hPolled
        simp
        exact hPolled

theorem finishedPowerOff_yields :
    u.finishedPowerOff.Yields
      (u.MayBecome now entered .finishedPowerOff) := by
  unfold finishedPowerOff checkpointAt persist
  simp [MayBecome]
  rfl

theorem finishedPoweringOff_yields :
    (u.finishedPoweringOff now).Yields
      (u.MayBecome now entered .finishedPoweringOff) := by
  unfold finishedPoweringOff checkpointAt persist
  simp [MayBecome, waits]
  left; rfl

theorem finishedCloudConnecting_yields :
    (u.finishedCloudConnecting now entered).Yields
      (u.MayBecome now entered
        .finishedCloudConnecting) := by
  have hConnected :
      u.MayBecome now entered .finishedCloudConnecting
        (u.moveTo .finishedCloudConnected) :=
    Or.inl rfl
  have hLate :
      u.TimedOut now u.policy.cloudConnectTimeout →
        u.MayBecome now entered .finishedCloudConnecting
          u.exitDelayed := by
    intro hLate
    right
    rw [waits_late hLate]
  have hEarly :
      ¬ u.TimedOut now u.policy.cloudConnectTimeout →
        u.MayBecome now entered .finishedCloudConnecting u := by
    intro hEarly
    right
    rw [waits_early hEarly]
  unfold finishedCloudConnecting giveModemBack
  simp [hConnected]
  exact
    ⟨fun _ => ⟨hLate, hEarly⟩, fun _ => ⟨hLate, hEarly⟩⟩

theorem finishedCloudConnected_yields :
    u.finishedCloudConnected.Yields
      (u.MayBecome now entered .finishedCloudConnected) := by
  unfold finishedCloudConnected
  simp [MayBecome]

theorem finishedIdle_yields :
    u.finishedIdle.Yields
      (u.MayBecome now entered .finishedIdle) := by
  unfold finishedIdle checkpointAt persist Updater.show
  simp [MayBecome]
  rfl

/- A tick that works on a stage leaves what the stage may. -/
theorem work_yields :
    (u.work now entered).Yields
      (u.MayBecome now entered u.stage) := by
  unfold work
  cases u.stage with
  | idle => exact idle_yields
  | qualifyFlags => exact qualifyFlags_yields
  | qualifyModemOn => exact qualifyModemOn_yields
  | qualifyRetry => simp [MayBecome]
  | setupCloudConnect => exact setupCloudConnect_yields
  | setupCloudConnecting => exact setupCloudConnecting_yields
  | setupCloudConnected => exact setupCloudConnected_yields
  | downloadCloudDisconnect =>
      exact downloadCloudDisconnect_yields
  | downloadCellDisconnecting =>
      exact downloadCellDisconnecting_yields
  | downloadCellConnecting =>
      exact downloadCellConnecting_yields
  | downloadHttpsSetup => exact downloadHttpsSetup_yields
  | downloadReady => exact downloadReady_yields
  | installCellDisconnecting =>
      exact installCellDisconnecting_yields
  | installStarting => exact installStarting_yields
  | installWaiting => exact installWaiting_yields
  | finishedPowerOff => exact finishedPowerOff_yields
  | finishedPoweringOff => exact finishedPoweringOff_yields
  | finishedCloudConnecting =>
      exact finishedCloudConnecting_yields
  | finishedCloudConnected =>
      exact finishedCloudConnected_yields
  | finishedIdle => exact finishedIdle_yields

end Updater

------------------------------------------------------------
-- Stages of an Edge
------------------------------------------------------------

/- The stages to which a tick that works on a stage moves on. -/
@[simp]
def Stage.successors : Stage → List Stage
| idle => []
| qualifyFlags => [idle, qualifyModemOn, qualifyRetry]
| qualifyModemOn => [qualifyRetry, idle, setupCloudConnect]
| qualifyRetry => [idle, qualifyFlags]
| setupCloudConnect => [setupCloudConnecting]
| setupCloudConnecting => [setupCloudConnected, finishedIdle]
| setupCloudConnected =>
    [downloadCloudDisconnect, finishedIdle]
| downloadCloudDisconnect => [downloadCellDisconnecting]
| downloadCellDisconnecting =>
    [downloadCellConnecting, finishedIdle]
| downloadCellConnecting => [downloadHttpsSetup, finishedIdle]
| downloadHttpsSetup => [downloadReady, finishedIdle]
| downloadReady => [installCellDisconnecting, finishedIdle]
| installCellDisconnecting => [installStarting, finishedIdle]
| installStarting => [installWaiting, finishedPowerOff]
| installWaiting => [finishedPowerOff]
| finishedPowerOff => [finishedPoweringOff]
| finishedPoweringOff =>
    [finishedCloudConnecting, finishedIdle]
| finishedCloudConnecting =>
    [finishedCloudConnected, finishedPowerOff, finishedIdle]
| finishedCloudConnected => [finishedIdle]
| finishedIdle => [idle]

namespace Updater

variable
  {u next : Updater}
  {now : Instant}
  {entered : Bool}

@[simp]
theorem stage_moveTo
    (next : Stage) :
    (u.moveTo next).stage = next :=
  rfl

@[simp]
theorem stage_fail
    (cause : Failure)
    (next : Stage) :
    (u.fail cause next).stage = next :=
  rfl

theorem stage_offered
    {version : UInt32}
    {offer : Updater}
    (hOffered : u.offered? version = some offer) :
    offer.stage = .setupCloudConnect := by
  unfold offered? at hOffered
  rw [Option.map_eq_some_iff] at hOffered
  rcases hOffered with ⟨selected, hSelected, rfl⟩
  rfl

/-
  A tick stays in its stage or moves on to a successor. When the
  reset into safe mode comes back, the stage that was stored is
  taken up in the middle of a tick.
-/
def Edge
    (u next : Updater) : Prop :=
  (next.stage = u.stage ∧
    next.time.enteredAt = u.time.enteredAt) ∨
  (next.stage ∈ u.stage.successors ∧ next.time = .fresh) ∨
  (u.stage = .qualifyModemOn ∧
    next.stage = .setupCloudConnect)

theorem Edge.stay
    (hStage : next.stage = u.stage)
    (hEntered : next.time.enteredAt = u.time.enteredAt) :
    u.Edge next :=
  Or.inl ⟨hStage, hEntered⟩

theorem Edge.move
    {stage target : Stage}
    (w : Updater)
    (hStage : u.stage = stage)
    (hTarget : target ∈ stage.successors) :
    u.Edge (w.moveTo target) := by
  right; left
  rw [hStage]
  exact ⟨hTarget, rfl⟩

theorem edge_waits
    {timeout : UInt32}
    {late early : Updater}
    (hLate : u.Edge late)
    (hEarly : u.Edge early) :
    u.Edge (u.waits now timeout late early) := by
  unfold waits
  split
  · exact hLate
  · exact hEarly

theorem edge_attemptLost
    (hStage : u.stage = .downloadReady) :
    u.Edge u.attemptLost := by
  dsimp only [attemptLost]
  split
  · exact Edge.move _ hStage (by simp)
  · exact Edge.stay rfl rfl

theorem edge_judged
    {version : UInt32}
    {complete : Bool}
    (hStage : u.stage = .installWaiting) :
    u.Edge (u.judged now version complete) := by
  unfold judged
  split
  · exact Edge.move _ hStage (by simp)
  · exact Edge.move _ hStage (by simp)
  · apply edge_waits
    · exact Edge.move _ hStage (by simp)
    · exact Edge.stay rfl rfl

theorem edge_of_mayBecome
    (hNext : u.MayBecome now entered u.stage next) :
    u.Edge next := by
  cases hStage : u.stage <;> rw [hStage] at hNext <;>
    simp only [MayBecome] at hNext
  case idle =>
    rcases hNext with rfl | rfl
    · exact Edge.stay rfl rfl
    · exact Edge.stay rfl rfl
  case qualifyFlags =>
    rcases hNext with rfl | rfl | rfl | rfl
    · exact Edge.move _ hStage (by simp)
    · exact Edge.move _ hStage (by simp)
    · exact Edge.move _ hStage (by simp)
    · exact Edge.move _ hStage (by simp)
  case qualifyModemOn =>
    rcases hNext with rfl | rfl | ⟨version, hVersion, hOffer⟩
    · exact Edge.stay rfl rfl
    · exact Edge.move _ hStage (by simp)
    · cases hOffered : u.offered? version with
      | none =>
          rw [hOffered] at hOffer
          rw [hOffer]
          exact Edge.move _ hStage (by simp)
      | some offer =>
          rw [hOffered] at hOffer
          rcases hOffer with rfl | rfl
          · exact Edge.move _ hStage (by simp)
          · right; right
            exact ⟨hStage, stage_offered hOffered⟩
  case qualifyRetry =>
    rw [hNext]
    dsimp only [qualifyRetry]
    split
    · exact Edge.move _ hStage (by simp)
    · exact Edge.move _ hStage (by simp)
  case setupCloudConnect =>
    rw [hNext]
    exact Edge.move _ hStage (by simp)
  case setupCloudConnecting =>
    rcases hNext with rfl | rfl
    · exact Edge.move _ hStage (by simp)
    · apply edge_waits
      · exact Edge.move _ hStage (by simp)
      · exact Edge.stay rfl rfl
  case setupCloudConnected =>
    rcases hNext with rfl | rfl
    · exact Edge.move _ hStage (by simp)
    · dsimp only [publishRefused]
      split
      · exact Edge.move _ hStage (by simp)
      · exact Edge.stay rfl rfl
  case downloadCloudDisconnect =>
    rcases hNext with rfl | rfl
    · exact Edge.move _ hStage (by simp)
    · apply edge_waits
      · exact Edge.move _ hStage (by simp)
      · exact Edge.stay rfl rfl
  case downloadCellDisconnecting =>
    rcases hNext with rfl | rfl
    · exact Edge.move _ hStage (by simp)
    · apply edge_waits
      · exact Edge.move _ hStage (by simp)
      · exact Edge.stay rfl rfl
  case downloadCellConnecting =>
    rcases hNext with rfl | rfl
    · exact Edge.move _ hStage (by simp)
    · apply edge_waits
      · exact Edge.move _ hStage (by simp)
      · exact Edge.stay rfl rfl
  case downloadHttpsSetup =>
    rcases hNext with rfl | rfl
    · exact Edge.move _ hStage (by simp)
    · dsimp only [setupRefused]
      split
      · exact Edge.move _ hStage (by simp)
      · exact Edge.stay rfl rfl
  case downloadReady =>
    cases hPending : u.time.pendingSince with
    | none =>
        rw [hPending] at hNext
        rcases hNext with rfl | rfl
        · exact Edge.stay rfl rfl
        · exact edge_attemptLost hStage
    | some since =>
        rw [hPending] at hNext
        rcases hNext with rfl | rfl | ⟨hWaiting, rfl⟩
        · exact Edge.move _ hStage (by simp)
        · exact edge_attemptLost hStage
        · exact Edge.stay rfl rfl
  case installCellDisconnecting =>
    rcases hNext with rfl | rfl
    · exact Edge.move _ hStage (by simp)
    · apply edge_waits
      · exact Edge.move _ hStage (by simp)
      · exact Edge.stay rfl rfl
  case installStarting =>
    cases entered with
    | true =>
        rcases hNext with ⟨version, rfl | rfl⟩
        · exact Edge.move _ hStage (by simp)
        · exact Edge.stay rfl rfl
    | false =>
        rcases hNext with rfl | rfl
        · exact Edge.move _ hStage (by simp)
        · apply edge_waits
          · exact Edge.move _ hStage (by simp)
          · exact Edge.stay rfl rfl
  case installWaiting =>
    cases entered with
    | true =>
        cases hNext
        exact Edge.stay rfl rfl
    | false =>
        rcases hNext with ⟨version, complete, rfl⟩
        exact edge_judged hStage
  case finishedPowerOff =>
    rw [hNext]
    exact Edge.move _ hStage (by simp)
  case finishedPoweringOff =>
    rcases hNext with rfl | rfl
    · exact Edge.move _ hStage (by simp)
    · apply edge_waits
      · exact Edge.move _ hStage (by simp)
      · exact Edge.stay rfl rfl
  case finishedCloudConnecting =>
    rcases hNext with rfl | rfl
    · exact Edge.move _ hStage (by simp)
    · apply edge_waits
      · dsimp only [exitDelayed]
        split
        · exact Edge.move _ hStage (by simp)
        · exact Edge.move _ hStage (by simp)
      · exact Edge.stay rfl rfl
  case finishedCloudConnected =>
    rcases hNext with rfl | rfl
    · exact Edge.move _ hStage (by simp)
    · exact Edge.move _ hStage (by simp)
  case finishedIdle =>
    rw [hNext]
    exact Edge.move _ hStage (by simp)

end Updater

end Fota
