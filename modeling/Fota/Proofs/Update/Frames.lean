import Fota.Proofs.Update.Turns

/-
  This file states what work on a stage leaves as it was: the
  tuning, the server and that it was started always, the count
  of a retry outside of the stage that is tried again, a status
  that is not yet success outside of the wait for an install,
  and one that is not yet a failure outside of the stages that
  may end in it.

  Key definitions include:
    * `Stage.failures`
    * `Updater.Keeps`

  The main statements are `Updater.keeps_of_mayBecome` and
  `Turn.Works.keeps`.
-/

namespace Fota

------------------------------------------------------------
-- Failures of a Stage
------------------------------------------------------------

/- The failures as which work on a stage may end a run. -/
@[simp]
def Stage.failures : Stage → List Failure
| setupCloudConnecting => [.cloudConnectOnEntryTimeout]
| setupCloudConnected => [.publishStart]
| downloadCellDisconnecting =>
    [.setupCellularDisconnectTimeout]
| downloadCellConnecting => [.cellularConnectTimeout]
| downloadHttpsSetup => [.httpsSetup]
| downloadReady => [.downloadRetryMax]
| installCellDisconnecting =>
    [.installCellularDisconnectTimeout]
| installStarting => [.installAtError, .startInstallTimeout]
| installWaiting => [.sameVersion, .installTimeout]
| finishedPoweringOff => [.powerOffTimeout]
| finishedCloudConnecting => [.cloudConnectOnExitTimeout]
| finishedCloudConnected => [.publishResult]
| _ => []

namespace Updater

variable
  {u w next : Updater}
  {stage : Stage}
  {now : Instant}
  {entered : Bool}

------------------------------------------------------------
-- Kept Parts
------------------------------------------------------------

/- What work on a stage leaves as it was. -/
structure Keeps
    (stage : Stage)
    (u next : Updater) : Prop where
  policy : next.policy = u.policy
  server : next.server = u.server
  started : next.started = u.started
  qualify :
    stage ≠ .qualifyRetry →
      next.retries.qualify = u.retries.qualify
  publishStart :
    stage ≠ .setupCloudConnected →
      next.retries.publishStart = u.retries.publishStart
  httpsSetup :
    stage ≠ .downloadHttpsSetup →
      next.retries.httpsSetup = u.retries.httpsSetup
  download :
    stage ≠ .downloadReady →
      next.retries.download = u.retries.download
  cloudConnectExit :
    stage ≠ .finishedCloudConnecting →
      next.retries.cloudConnectExit =
        u.retries.cloudConnectExit
  status :
    stage ≠ .installWaiting → next.status = .success →
      u.status = .success
  failure :
    ∀ cause ∉ stage.failures, next.status = .failed cause →
      u.status = .failed cause

/- Two updaters agree in what no stage may forget. -/
theorem keeps_of_retries
    (hPolicy : next.policy = u.policy)
    (hServer : next.server = u.server)
    (hStarted : next.started = u.started)
    (hRetries : next.retries = u.retries)
    (hStatus : next.status = u.status) :
    u.Keeps stage next := by
  constructor
  · exact hPolicy
  · exact hServer
  · exact hStarted
  all_goals intro _
  all_goals first | rw [hRetries] | rw [hStatus]
  · exact id
  · exact fun _ => id

theorem keeps_refl :
    u.Keeps stage u :=
  keeps_of_retries rfl rfl rfl rfl rfl

/- Going on to another stage forgets nothing. -/
theorem Keeps.moveTo
    (hKeeps : u.Keeps stage w)
    (target : Stage) :
    u.Keeps stage (w.moveTo target) :=
  ⟨hKeeps.policy, hKeeps.server, hKeeps.started,
    hKeeps.qualify, hKeeps.publishStart, hKeeps.httpsSetup,
    hKeeps.download, hKeeps.cloudConnectExit,
    hKeeps.status, hKeeps.failure⟩

/- A cooldown forgets nothing. -/
theorem Keeps.cool
    (hKeeps : u.Keeps stage w)
    (now : Instant)
    (duration : UInt32) :
    u.Keeps stage (w.cool now duration) :=
  ⟨hKeeps.policy, hKeeps.server, hKeeps.started,
    hKeeps.qualify, hKeeps.publishStart, hKeeps.httpsSetup,
    hKeeps.download, hKeeps.cloudConnectExit,
    hKeeps.status, hKeeps.failure⟩

/- A status that is not the end of a run forgets nothing. -/
theorem Keeps.setStatus
    {status : Status}
    (hKeeps : u.Keeps stage w)
    (hSuccess : status ≠ .success)
    (hFailed : ∀ cause ∉ stage.failures,
      status ≠ .failed cause) :
    u.Keeps stage (w.setStatus status) :=
  ⟨hKeeps.policy, hKeeps.server, hKeeps.started,
    hKeeps.qualify, hKeeps.publishStart, hKeeps.httpsSetup,
    hKeeps.download, hKeeps.cloudConnectExit,
    fun _ hSame => absurd hSame hSuccess,
    fun cause hOther hSame =>
      absurd hSame (hFailed cause hOther)⟩

/- A failure of the stage forgets nothing but the status. -/
theorem Keeps.fail
    {cause : Failure}
    (hKeeps : u.Keeps stage w)
    (hCause : cause ∈ stage.failures)
    (target : Stage) :
    u.Keeps stage (w.fail cause target) := by
  apply Keeps.moveTo
  apply hKeeps.setStatus (by simp)
  rintro other hOther ⟨⟩
  exact hOther hCause

theorem Keeps.waits
    {timeout : UInt32}
    {early : Updater}
    (hLate : u.Keeps stage w)
    (hEarly : u.Keeps stage early) :
    u.Keeps stage (u.waits now timeout w early) := by
  unfold Updater.waits
  split
  · exact hLate
  · exact hEarly

/- An offer forgets nothing. -/
theorem keeps_offered
    {version : UInt32}
    (hOffered : u.offered? version = some w) :
    u.Keeps stage w := by
  unfold offered? selectPath withVersion at hOffered
  dsimp only at hOffered
  split at hOffered
  · split at hOffered
    · cases hOffered
      exact keeps_of_retries rfl rfl rfl rfl rfl
    · cases hOffered
  · cases hFound : UpgradePath.find? version with
    | none =>
        rw [hFound] at hOffered
        cases hOffered
    | some path =>
        rw [hFound] at hOffered
        cases hOffered
        exact keeps_of_retries rfl rfl rfl rfl rfl

------------------------------------------------------------
-- Retried Stages
------------------------------------------------------------

theorem keeps_qualifyRetry :
    u.Keeps .qualifyRetry (u.qualifyRetry now) := by
  have hCounted :
      u.Keeps .qualifyRetry
        { u with
          retries.qualify := Retries.more u.retries.qualify } := by
    constructor <;> simp [Updater.status]
  unfold qualifyRetry
  dsimp only
  split
  · exact hCounted.moveTo _
  · exact (hCounted.cool _ _).moveTo _

theorem keeps_publishRefused :
    u.Keeps .setupCloudConnected u.publishRefused := by
  have hCounted :
      u.Keeps .setupCloudConnected
        { u with
          retries.publishStart :=
            Retries.more u.retries.publishStart } := by
    constructor <;> simp [Updater.status]
  dsimp only [publishRefused]
  split
  · exact hCounted.fail (by simp) _
  · exact hCounted

theorem keeps_setupRefused :
    u.Keeps .downloadHttpsSetup (u.setupRefused now) := by
  have hCounted :
      u.Keeps .downloadHttpsSetup
        { u with
          retries.httpsSetup :=
            Retries.more u.retries.httpsSetup } := by
    constructor <;> simp [Updater.status]
  dsimp only [setupRefused]
  split
  · exact hCounted.fail (by simp) _
  · exact hCounted.cool _ _

theorem keeps_attemptLost :
    u.Keeps .downloadReady u.attemptLost := by
  have hCounted :
      u.Keeps .downloadReady
        { u with
          time.pendingSince := none
          retries.download :=
            Retries.more u.retries.download } := by
    constructor <;> simp [Updater.status]
  dsimp only [attemptLost]
  split
  · exact hCounted.fail (by simp) _
  · exact hCounted

theorem keeps_exitDelayed :
    u.Keeps .finishedCloudConnecting u.exitDelayed := by
  have hCounted :
      u.Keeps .finishedCloudConnecting
        { u with
          retries.cloudConnectExit :=
            Retries.more u.retries.cloudConnectExit } := by
    constructor <;> simp [Updater.status]
  dsimp only [exitDelayed]
  split
  · exact hCounted.fail (by simp) _
  · exact hCounted.moveTo _

/- The end of an install changes the status as it must. -/
theorem keeps_judged
    {version : UInt32}
    {complete : Bool} :
    u.Keeps .installWaiting (u.judged now version complete) := by
  have hVersion :
      u.Keeps .installWaiting (u.withVersion version) :=
    keeps_of_retries rfl rfl rfl rfl rfl
  unfold judged
  split
  · exact hVersion.fail (by simp) _
  · constructor <;> simp [withVersion, Updater.setStatus,
      Updater.moveTo, Updater.status]
  · exact
      (keeps_refl.fail (by simp) _).waits
        (keeps_refl.cool _ _)

------------------------------------------------------------
-- Stages
------------------------------------------------------------

/- Work on a stage keeps what it does not try again. -/
theorem keeps_of_mayBecome
    (hNext : u.MayBecome now entered stage next) :
    u.Keeps stage next := by
  cases stage <;> simp only [MayBecome] at hNext
  case idle =>
    rcases hNext with rfl | rfl
    · exact keeps_of_retries rfl rfl rfl rfl rfl
    · exact keeps_refl.setStatus (by simp) (by simp)
  case qualifyFlags =>
    have hShown :
        u.Keeps .qualifyFlags
          { u with shown := .failed .qualifyFlags } :=
      keeps_of_retries rfl rfl rfl rfl rfl
    rcases hNext with rfl | rfl | rfl | rfl
    · exact keeps_refl.moveTo _
    · exact hShown.moveTo _
    · exact keeps_refl.moveTo _
    · exact keeps_refl.moveTo _
  case qualifyModemOn =>
    rcases hNext with rfl | rfl | ⟨version, hVersion, hOffer⟩
    · exact keeps_refl
    · exact keeps_refl.moveTo _
    · cases hOffered : u.offered? version with
      | none =>
          rw [hOffered] at hOffer
          rw [hOffer]
          exact keeps_of_retries rfl rfl rfl rfl rfl
      | some offer =>
          rw [hOffered] at hOffer
          rcases hOffer with rfl | rfl
          · exact (keeps_offered hOffered).moveTo _
          · exact keeps_offered hOffered
  case qualifyRetry =>
    rw [hNext]
    exact keeps_qualifyRetry
  case setupCloudConnect =>
    rw [hNext]
    exact keeps_refl.moveTo _
  case setupCloudConnecting =>
    rcases hNext with rfl | rfl
    · exact keeps_refl.moveTo _
    · exact (keeps_refl.fail (by simp) _).waits keeps_refl
  case setupCloudConnected =>
    rcases hNext with rfl | rfl
    · have hStarted :
          u.Keeps .setupCloudConnected
            (u.setStatus .downloading) :=
        keeps_refl.setStatus (by simp) (by simp)
      exact (hStarted.cool _ _).moveTo _
    · exact keeps_publishRefused
  case downloadCloudDisconnect =>
    have hOwning :
        u.Keeps .downloadCloudDisconnect (u.owning now) :=
      (keeps_refl.cool _ _).moveTo _
    rcases hNext with rfl | rfl
    · exact hOwning
    · exact hOwning.waits keeps_refl
  case downloadCellDisconnecting =>
    rcases hNext with rfl | rfl
    · exact keeps_refl.moveTo _
    · exact (keeps_refl.fail (by simp) _).waits keeps_refl
  case downloadCellConnecting =>
    rcases hNext with rfl | rfl
    · exact keeps_refl.moveTo _
    · exact
        (keeps_refl.fail (by simp) _).waits
          (keeps_refl.cool _ _)
  case downloadHttpsSetup =>
    rcases hNext with rfl | rfl
    · exact keeps_refl.moveTo _
    · exact keeps_setupRefused
  case downloadReady =>
    cases hPending : u.time.pendingSince with
    | none =>
        rw [hPending] at hNext
        rcases hNext with rfl | rfl
        · exact keeps_of_retries rfl rfl rfl rfl rfl
        · exact keeps_attemptLost
    | some since =>
        rw [hPending] at hNext
        rcases hNext with rfl | rfl | ⟨_, rfl⟩
        · exact keeps_refl.moveTo _
        · exact keeps_attemptLost
        · exact keeps_refl
  case installCellDisconnecting =>
    rcases hNext with rfl | rfl
    · exact keeps_refl.moveTo _
    · exact (keeps_refl.fail (by simp) _).waits keeps_refl
  case installStarting =>
    cases entered with
    | true =>
        rcases hNext with ⟨version, hNext⟩
        have hReplacing :
            u.Keeps .installStarting (u.replacing version) :=
          keeps_of_retries rfl rfl rfl rfl rfl
        rcases hNext with rfl | rfl
        · exact hReplacing.fail (by simp) _
        · exact hReplacing.cool _ _
    | false =>
        rcases hNext with rfl | rfl
        · have hUpdating :
              u.Keeps .installStarting
                (u.setStatus .updating) :=
            keeps_refl.setStatus (by simp) (by simp)
          exact hUpdating.moveTo _
        · exact
            (keeps_refl.fail (by simp) _).waits
              (keeps_refl.cool _ _)
  case installWaiting =>
    cases entered with
    | true =>
        cases hNext
        exact keeps_refl.cool _ _
    | false =>
        rcases hNext with ⟨version, complete, rfl⟩
        exact keeps_judged
  case finishedPowerOff =>
    rw [hNext]
    exact keeps_refl.moveTo _
  case finishedPoweringOff =>
    rcases hNext with rfl | rfl
    · exact keeps_refl.moveTo _
    · exact (keeps_refl.fail (by simp) _).waits keeps_refl
  case finishedCloudConnecting =>
    rcases hNext with rfl | rfl
    · exact keeps_refl.moveTo _
    · exact keeps_exitDelayed.waits keeps_refl
  case finishedCloudConnected =>
    rcases hNext with rfl | rfl
    · exact keeps_refl.moveTo _
    · exact keeps_refl.fail (by simp) _
  case finishedIdle =>
    have hRested :
        u.Keeps .finishedIdle
          { u with
            shown := u.status
            checkpoint.availability := .unknown
            checkpoint.ownPath := false } :=
      keeps_of_retries rfl rfl rfl rfl rfl
    rw [hNext]
    exact hRested.moveTo _

end Updater

/- A turn keeps what its stage does not try again. -/
theorem Turn.Works.keeps
    {turn : Turn}
    {now : Instant}
    {rest : List Update.Exchange}
    (hWorks : turn.Works now rest) :
    turn.before.Keeps turn.before.stage turn.after := by
  have hKeeps := Updater.keeps_of_mayBecome hWorks.mayBecome
  exact
    ⟨hKeeps.policy, hKeeps.server, hKeeps.started,
      hKeeps.qualify, hKeeps.publishStart, hKeeps.httpsSetup,
      hKeeps.download, hKeeps.cloudConnectExit,
      hKeeps.status, hKeeps.failure⟩

end Fota
