import Fota.Proofs.Update.Calls

/-
  This file defines when stage, status and versions of a
  checkpoint agree with each other, and shows that ticks and
  requests keep it so.

  Key definitions include:
    * `Phase`
    * `Stage.phase`
    * `Checkpoint.Consistent`
    * `Checkpoint.Steady`
    * `Checkpoint.Recorded`
    * `Updater.Sound`

  The main statements are `Updater.Sound.work` and
  `Updater.Sound.request`.
-/

namespace Fota

------------------------------------------------------------
-- Phases
------------------------------------------------------------

/- The phases of an update run, each with its own status. -/
inductive Phase where
| rest
| qualifying
| announcing
| working
| waiting
| finished
deriving DecidableEq, Repr

namespace Phase

/- A status that a run may have in a phase. -/
def Allows : Phase → Status → Prop
| rest, _ => True
| qualifying, status => status = .idle
| announcing, status => status = .idle
| working, status => status = .downloading
| waiting, status => status = .updating
| finished, status =>
    status = .success ∨ status.isFailure = true

/- In these phases a run follows an upgrade path. -/
def onPath : List Phase :=
  [announcing, working, waiting]

end Phase

/- The phase that a stage belongs to. -/
@[simp]
def Stage.phase : Stage → Phase
| idle => .rest
| qualifyFlags => .qualifying
| qualifyModemOn => .qualifying
| qualifyRetry => .qualifying
| setupCloudConnect => .announcing
| setupCloudConnecting => .announcing
| setupCloudConnected => .announcing
| downloadCloudDisconnect => .working
| downloadCellDisconnecting => .working
| downloadCellConnecting => .working
| downloadHttpsSetup => .working
| downloadReady => .working
| installCellDisconnecting => .working
| installStarting => .working
| installWaiting => .waiting
| finishedPowerOff => .finished
| finishedPoweringOff => .finished
| finishedCloudConnecting => .finished
| finishedCloudConnected => .finished
| finishedIdle => .finished

------------------------------------------------------------
-- Consistent Checkpoints
------------------------------------------------------------

namespace Checkpoint

/- The run follows its upgrade path from the version it read. -/
structure Follows
    (c : Checkpoint) : Prop where
  valid : c.path.Valid
  start : c.installed = c.path.start
  known : c.installed ≠ 0
  goal : c.wanted = c.path.goal

/- Status and versions agree with the stage. -/
structure Consistent
    (c : Checkpoint) : Prop where
  status : c.stage.phase.Allows c.status
  path : c.stage.phase ∈ Phase.onPath → c.Follows
  replaced : c.stage.phase = .waiting → c.replaced ≠ 0
  installed :
    c.stage.phase = .finished → c.status = .success →
      c.installed ≠ 0 ∧ c.installed ≠ c.replaced

/- What a tick keeps: a path of the caller is valid besides. -/
structure Steady
    (c : Checkpoint) : Prop extends Consistent c where
  own : c.ownPath = true → c.path.Valid

/- The stages at which a checkpoint is stored. -/
def storedStages : List Stage :=
  [.idle, .setupCloudConnect, .installWaiting,
    .finishedPowerOff, .finishedCloudConnecting,
    .finishedIdle]

/- A checkpoint that an updater may store. -/
structure Recorded
    (c : Checkpoint) : Prop extends Steady c where
  stage : c.stage ∈ storedStages

variable {c : Checkpoint} {stage target : Stage}

/- A change of the stage within its phase changes nothing. -/
theorem Steady.within
    (hSteady : c.Steady)
    (hStage : c.stage = stage)
    (hPhase : target.phase = stage.phase) :
    { c with stage := target }.Steady := by
  rw [← hStage] at hPhase
  constructor
  · constructor
    · dsimp only
      rw [hPhase]
      exact hSteady.status
    · intro hOnPath
      rw [hPhase] at hOnPath
      have hFollows := hSteady.path hOnPath
      exact ⟨hFollows.1, hFollows.2, hFollows.3, hFollows.4⟩
    · intro hWaiting
      rw [hPhase] at hWaiting
      exact hSteady.replaced hWaiting
    · intro hFinished
      rw [hPhase] at hFinished
      exact hSteady.installed hFinished
  · exact hSteady.own

/- At rest nothing is asked but that the own path is valid. -/
theorem steady_of_rest
    (hStage : c.stage = .idle)
    (hOwn : c.ownPath = true → c.path.Valid) :
    c.Steady := by
  constructor
  · constructor
    · rw [hStage]
      trivial
    · rw [hStage]
      intro hOnPath
      simp [Stage.phase, Phase.onPath] at hOnPath
    · rw [hStage]
      intro hWaiting
      cases hWaiting
    · rw [hStage]
      intro hFinished
      cases hFinished
  · exact hOwn

/- While a run qualifies, its status is idle. -/
theorem steady_of_qualifying
    (hPhase : c.stage.phase = .qualifying)
    (hStatus : c.status = .idle)
    (hOwn : c.ownPath = true → c.path.Valid) :
    c.Steady := by
  constructor
  · constructor
    · rw [hPhase]
      exact hStatus
    · rw [hPhase]
      intro hOnPath
      simp [Phase.onPath] at hOnPath
    · rw [hPhase]
      intro hWaiting
      cases hWaiting
    · rw [hPhase]
      intro hFinished
      cases hFinished
  · exact hOwn

/- A run that has failed only keeps that its path is valid. -/
theorem steady_of_failed
    {cause : Failure}
    (hPhase : c.stage.phase = .finished)
    (hStatus : c.status = .failed cause)
    (hOwn : c.ownPath = true → c.path.Valid) :
    c.Steady := by
  constructor
  · constructor
    · rw [hPhase, hStatus]
      exact Or.inr rfl
    · rw [hPhase]
      intro hOnPath
      simp [Phase.onPath] at hOnPath
    · rw [hPhase]
      intro hWaiting
      cases hWaiting
    · rw [hStatus]
      intro hFinished hSuccess
      cases hSuccess
  · exact hOwn

/- A run that has succeeded knows the version that it reached. -/
theorem steady_of_succeeded
    (hPhase : c.stage.phase = .finished)
    (hStatus : c.status = .success)
    (hInstalled : c.installed ≠ 0 ∧ c.installed ≠ c.replaced)
    (hOwn : c.ownPath = true → c.path.Valid) :
    c.Steady := by
  constructor
  · constructor
    · rw [hPhase, hStatus]
      exact Or.inl rfl
    · rw [hPhase]
      intro hOnPath
      simp [Phase.onPath] at hOnPath
    · rw [hPhase]
      intro hWaiting
      cases hWaiting
    · intro hFinished hSuccess
      exact hInstalled
  · exact hOwn

/- A run on its path has the status of its phase. -/
theorem steady_of_follows
    (hPhase : c.stage.phase ∈ Phase.onPath)
    (hStatus : c.stage.phase.Allows c.status)
    (hFollows : c.Follows)
    (hReplaced : c.stage.phase = .waiting → c.replaced ≠ 0) :
    c.Steady := by
  constructor
  · constructor
    · exact hStatus
    · intro hOnPath
      exact hFollows
    · exact hReplaced
    · intro hFinished
      rw [hFinished] at hPhase
      simp [Phase.onPath] at hPhase
  · intro hOwn
    exact hFollows.valid

theorem Steady.follows
    (hSteady : c.Steady)
    (hStage : c.stage = stage)
    (hPhase : stage.phase ∈ Phase.onPath) :
    c.Follows := by
  rw [← hStage] at hPhase
  exact hSteady.path hPhase

end Checkpoint

------------------------------------------------------------
-- Upgrade Paths
------------------------------------------------------------

/- The known path for a version is valid and starts there. -/
theorem UpgradePath.valid_of_find?
    {version : UInt32}
    {path : UpgradePath}
    (hFound : find? version = some path) :
    path.Valid ∧ path.start = version := by
  have hKnown : ∀ known ∈ catalogue, known.Valid := by
    decide +kernel
  have hStart := List.find?_some hFound
  have hMem := List.mem_of_find?_eq_some hFound
  exact ⟨hKnown path hMem, of_decide_eq_true hStart⟩

namespace Updater

variable
  {u next : Updater}
  {now : Instant}
  {entered : Bool}

/- A selected path is followed from the version that was read. -/
theorem follows_of_selectPath
    {version : UInt32}
    (hVersion : version ≠ 0)
    (hOwn : u.checkpoint.ownPath = true →
      u.checkpoint.path.Valid)
    (hSelected :
      (u.withVersion version).selectPath version = some next) :
    next.checkpoint.Follows ∧
      next.checkpoint.status = u.checkpoint.status := by
  unfold selectPath withVersion at hSelected
  dsimp only at hSelected
  by_cases hOwnPath : u.checkpoint.ownPath = true
  · rw [if_pos hOwnPath] at hSelected
    by_cases hStart : u.checkpoint.path.start = version
    · rw [if_pos hStart] at hSelected
      cases hSelected
      exact ⟨⟨hOwn hOwnPath, hStart.symm, hVersion, rfl⟩, rfl⟩
    · rw [if_neg hStart] at hSelected
      cases hSelected
  · rw [if_neg hOwnPath, Option.map_eq_some_iff] at hSelected
    rcases hSelected with ⟨path, hFound, rfl⟩
    have hPath := UpgradePath.valid_of_find? hFound
    exact
      ⟨⟨hPath.1, hPath.2.symm, hVersion, rfl⟩, rfl⟩

/- What is offered is stored in a steady state. -/
theorem steady_of_offered
    {version : UInt32}
    {offer : Updater}
    (hVersion : version ≠ 0)
    (hStatus : u.checkpoint.status = .idle)
    (hOwn : u.checkpoint.ownPath = true →
      u.checkpoint.path.Valid)
    (hOffered : u.offered? version = some offer) :
    offer.checkpoint.Steady := by
  unfold offered? at hOffered
  rw [Option.map_eq_some_iff] at hOffered
  rcases hOffered with ⟨selected, hSelected, rfl⟩
  have hFollows :=
    follows_of_selectPath hVersion hOwn hSelected
  have hPath := hFollows.1
  apply Checkpoint.steady_of_follows
  · simp [Stage.phase, Phase.onPath]
  · exact hFollows.2.trans hStatus
  · exact ⟨hPath.valid, hPath.start, hPath.known, hPath.goal⟩
  · intro hWaiting
    cases hWaiting

------------------------------------------------------------
-- Steady Ticks
------------------------------------------------------------

/- A failure leads from anywhere to a steady state. -/
theorem steady_fail
    {cause : Failure}
    {target : Stage}
    (hTarget : target.phase = .finished)
    (hOwn : u.checkpoint.ownPath = true →
      u.checkpoint.path.Valid) :
    (u.fail cause target).checkpoint.Steady :=
  Checkpoint.steady_of_failed hTarget rfl hOwn

/- What a look without result leads to is steady. -/
theorem steady_waits
    {timeout : UInt32}
    {late early : Updater}
    (hLate : late.checkpoint.Steady)
    (hEarly : early.checkpoint.Steady) :
    (u.waits now timeout late early).checkpoint.Steady := by
  unfold waits
  split
  · exact hLate
  · exact hEarly

/- An install has succeeded when there is another version. -/
theorem judge_installed
    {version : UInt32}
    {complete : Bool}
    {c : Checkpoint}
    (hJudge : judge version complete c = .installed) :
    version ≠ 0 ∧ version ≠ c.replaced := by
  unfold judge at hJudge
  by_cases hZero : version = 0
  · rw [if_pos hZero] at hJudge
    cases hJudge
  · rw [if_neg hZero] at hJudge
    by_cases hSame : version = c.replaced
    · rw [if_pos hSame] at hJudge
      cases hJudge
    · exact ⟨hZero, hSame⟩

/- Judging an install keeps the checkpoint steady. -/
theorem steady_judged
    {version : UInt32}
    {complete : Bool}
    (hSteady : u.checkpoint.Steady) :
    (u.judged now version complete).checkpoint.Steady := by
  unfold judged
  split
  · exact steady_fail rfl hSteady.own
  · rename_i hInstalled
    exact
      Checkpoint.steady_of_succeeded rfl rfl
        (judge_installed hInstalled) hSteady.own
  · apply steady_waits
    · exact steady_fail rfl hSteady.own
    · exact hSteady

/- Noting the version to replace keeps the checkpoint steady. -/
theorem steady_replacing
    {version : UInt32}
    (hSteady : u.checkpoint.Steady)
    (hStage : u.stage = .installStarting) :
    (u.replacing version).checkpoint.Steady := by
  have hFollows :=
    hSteady.follows hStage (by simp [Phase.onPath])
  have hStatus := hSteady.status
  have hPhase : u.checkpoint.stage.phase = .working := by
    rw [show u.checkpoint.stage = .installStarting from hStage]
    rfl
  apply Checkpoint.steady_of_follows
  · change u.checkpoint.stage.phase ∈ Phase.onPath
    rw [hPhase]
    simp [Phase.onPath]
  · exact hStatus
  · exact
      ⟨hFollows.valid, hFollows.start, hFollows.known,
        hFollows.goal⟩
  · intro hWaiting
    change u.checkpoint.stage.phase = .waiting at hWaiting
    rw [hPhase] at hWaiting
    cases hWaiting

/- The version that is replaced is known once it was noted. -/
theorem replaced_replacing
    {version : UInt32}
    (hSteady : u.checkpoint.Steady)
    (hStage : u.stage = .installStarting) :
    (u.replacing version).checkpoint.replaced ≠ 0 := by
  have hFollows :=
    hSteady.follows hStage (by simp [Phase.onPath])
  unfold replacing
  dsimp only
  by_cases hZero : version = 0
  · rw [if_pos hZero]
    exact hFollows.known
  · rw [if_neg hZero]
    exact hZero

/- The run waits for its install with the replaced version known. -/
theorem steady_awaiting
    (hSteady : u.checkpoint.Steady)
    (hStage : u.stage = .installStarting)
    (hReplaced : u.checkpoint.replaced ≠ 0) :
    ((u.setStatus .updating).moveTo
      .installWaiting).checkpoint.Steady := by
  have hFollows :=
    hSteady.follows hStage (by simp [Phase.onPath])
  apply Checkpoint.steady_of_follows
  · change Phase.waiting ∈ Phase.onPath
    simp [Phase.onPath]
  · rfl
  · exact
      ⟨hFollows.valid, hFollows.start, hFollows.known,
        hFollows.goal⟩
  · intro hWaiting
    exact hReplaced

/- A tick keeps the checkpoint steady. -/
theorem steady_of_mayBecome
    (hSteady : u.checkpoint.Steady)
    (hPrimed :
      u.stage = .installStarting → entered = false →
        u.checkpoint.replaced ≠ 0)
    (hNext : u.MayBecome now entered u.stage next) :
    next.checkpoint.Steady := by
  have hOwn := hSteady.own
  cases hStage : u.stage <;> rw [hStage] at hNext <;>
    simp only [MayBecome] at hNext
  case idle =>
    rcases hNext with rfl | rfl
    · refine Checkpoint.steady_of_rest hStage ?_
      intro hOwnPath
      cases hOwnPath
    · exact Checkpoint.steady_of_rest hStage hOwn
  case qualifyFlags =>
    rcases hNext with rfl | rfl | rfl | rfl
    · exact Checkpoint.steady_of_rest rfl hOwn
    · exact Checkpoint.steady_of_rest rfl hOwn
    · exact hSteady.within hStage rfl
    · exact hSteady.within hStage rfl
  case qualifyModemOn =>
    have hStatus : u.checkpoint.status = .idle := by
      have hAllowed := hSteady.status
      rw [show u.checkpoint.stage = _ from hStage] at hAllowed
      exact hAllowed
    rcases hNext with rfl | rfl | ⟨version, hVersion, hOffer⟩
    · exact hSteady
    · exact hSteady.within hStage rfl
    · cases hOffered : u.offered? version with
      | none =>
          rw [hOffered] at hOffer
          rw [hOffer]
          exact Checkpoint.steady_of_rest rfl hOwn
      | some offer =>
          have hSteadyOffer :=
            steady_of_offered hVersion hStatus hOwn hOffered
          have hStageOffer := stage_offered hOffered
          rw [hOffered] at hOffer
          rcases hOffer with rfl | rfl
          · exact hSteadyOffer.within hStageOffer rfl
          · exact hSteadyOffer
  case qualifyRetry =>
    rw [hNext]
    dsimp only [qualifyRetry]
    split
    · exact Checkpoint.steady_of_rest rfl hOwn
    · exact hSteady.within hStage rfl
  case setupCloudConnect =>
    rw [hNext]
    exact hSteady.within hStage rfl
  case setupCloudConnecting =>
    rcases hNext with rfl | rfl
    · exact hSteady.within hStage rfl
    · apply steady_waits
      · exact steady_fail rfl hOwn
      · exact hSteady
  case setupCloudConnected =>
    rcases hNext with rfl | rfl
    · have hFollows :=
        hSteady.follows hStage (by simp [Phase.onPath])
      apply Checkpoint.steady_of_follows
      · change Phase.working ∈ Phase.onPath
        simp [Phase.onPath]
      · rfl
      · exact
          ⟨hFollows.valid, hFollows.start, hFollows.known,
            hFollows.goal⟩
      · intro hWaiting
        cases hWaiting
    · dsimp only [publishRefused]
      split
      · exact steady_fail rfl hOwn
      · exact hSteady
  case downloadCloudDisconnect =>
    rcases hNext with rfl | rfl
    · exact hSteady.within hStage rfl
    · apply steady_waits
      · exact hSteady.within hStage rfl
      · exact hSteady
  case downloadCellDisconnecting =>
    rcases hNext with rfl | rfl
    · exact hSteady.within hStage rfl
    · apply steady_waits
      · exact steady_fail rfl hOwn
      · exact hSteady
  case downloadCellConnecting =>
    rcases hNext with rfl | rfl
    · exact hSteady.within hStage rfl
    · apply steady_waits
      · exact steady_fail rfl hOwn
      · exact hSteady
  case downloadHttpsSetup =>
    rcases hNext with rfl | rfl
    · exact hSteady.within hStage rfl
    · dsimp only [setupRefused]
      split
      · exact steady_fail rfl hOwn
      · exact hSteady
  case downloadReady =>
    have hLost : u.attemptLost.checkpoint.Steady := by
      dsimp only [attemptLost]
      split
      · exact steady_fail rfl hOwn
      · exact hSteady
    cases hPending : u.time.pendingSince with
    | none =>
        rw [hPending] at hNext
        rcases hNext with rfl | rfl
        · exact hSteady
        · exact hLost
    | some since =>
        rw [hPending] at hNext
        rcases hNext with rfl | rfl | ⟨hWaiting, rfl⟩
        · exact hSteady.within hStage rfl
        · exact hLost
        · exact hSteady
  case installCellDisconnecting =>
    rcases hNext with rfl | rfl
    · exact hSteady.within hStage rfl
    · apply steady_waits
      · exact steady_fail rfl hOwn
      · exact hSteady
  case installStarting =>
    cases entered with
    | true =>
        rcases hNext with ⟨version, rfl | rfl⟩
        · exact steady_fail rfl hOwn
        · exact steady_replacing hSteady hStage
    | false =>
        rcases hNext with rfl | rfl
        · exact
            steady_awaiting hSteady hStage (hPrimed hStage rfl)
        · apply steady_waits
          · exact steady_fail rfl hOwn
          · exact hSteady
  case installWaiting =>
    cases entered with
    | true =>
        cases hNext
        exact hSteady
    | false =>
        rcases hNext with ⟨version, complete, rfl⟩
        exact steady_judged hSteady
  case finishedPowerOff =>
    rw [hNext]
    exact hSteady.within hStage rfl
  case finishedPoweringOff =>
    rcases hNext with rfl | rfl
    · exact hSteady.within hStage rfl
    · apply steady_waits
      · exact steady_fail rfl hOwn
      · exact hSteady
  case finishedCloudConnecting =>
    rcases hNext with rfl | rfl
    · exact hSteady.within hStage rfl
    · apply steady_waits
      · dsimp only [exitDelayed]
        split
        · exact steady_fail rfl hOwn
        · exact hSteady.within hStage rfl
      · exact hSteady
  case finishedCloudConnected =>
    rcases hNext with rfl | rfl
    · exact hSteady.within hStage rfl
    · exact steady_fail rfl hOwn
  case finishedIdle =>
    rw [hNext]
    refine Checkpoint.steady_of_rest rfl ?_
    intro hOwnPath
    cases hOwnPath

------------------------------------------------------------
-- Sound Updaters
------------------------------------------------------------

/-
  The updater is sound between calls. Once it has begun to start
  an install, it knows the version that is replaced.
-/
structure Sound
    (u : Updater) : Prop where
  steady : u.checkpoint.Steady
  primed :
    u.stage = .installStarting → u.time.enteredAt ≠ none →
      u.checkpoint.replaced ≠ 0

/- In a stage that begins, nothing has to be known yet. -/
theorem sound_of_fresh
    (hSteady : u.checkpoint.Steady)
    (hTime : u.time = .fresh) :
    u.Sound := by
  refine ⟨hSteady, ?_⟩
  intro hStage hEntered
  rw [hTime] at hEntered
  exact absurd rfl hEntered

/- Working on a stage keeps an updater sound. -/
theorem Sound.work
    (hSound : u.Sound)
    (hNext :
      (u.entering now).MayBecome now u.time.enteredAt.isNone
        (u.entering now).stage next) :
    next.Sound := by
  have hSteady : (u.entering now).checkpoint.Steady :=
    hSound.steady
  have hPrimed :
      (u.entering now).stage = .installStarting →
        u.time.enteredAt.isNone = false →
          (u.entering now).checkpoint.replaced ≠ 0 := by
    intro hStage hEntered
    apply hSound.primed hStage
    intro hNone
    rw [hNone] at hEntered
    cases hEntered
  refine
    ⟨steady_of_mayBecome hSteady hPrimed hNext, ?_⟩
  intro hStage hEntered
  rcases edge_of_mayBecome hNext with hStay | hMove | hTaken
  · have hStarting :
        (u.entering now).stage = .installStarting :=
      hStay.1.symm.trans hStage
    rw [hStarting] at hNext
    cases hFirst : u.time.enteredAt.isNone with
    | true =>
        rw [hFirst] at hNext
        rcases hNext with ⟨version, rfl | rfl⟩
        · cases hStage
        · exact replaced_replacing hSteady hStarting
    | false =>
        rw [hFirst] at hNext
        rcases hNext with rfl | rfl
        · cases hStage
        · unfold waits
          split
          · exact hPrimed hStarting hFirst
          · exact hPrimed hStarting hFirst
  · rw [hMove.2] at hEntered
    exact absurd rfl hEntered
  · rw [hTaken.2] at hStage
    cases hStage

/- A request keeps an updater sound. -/
theorem Sound.request
    (hSound : u.Sound)
    (hNext : u.Requested next) :
    next.Sound := by
  have hOwn := hSound.steady.own
  rcases hNext with
    rfl | ⟨hReady, rfl⟩ | ⟨hIdle, rfl⟩ | ⟨path, hValid, hNext⟩
  · exact hSound
  · apply sound_of_fresh
    · exact Checkpoint.steady_of_qualifying rfl hReady.2.2 hOwn
    · rfl
  · constructor
    · refine Checkpoint.steady_of_rest hIdle ?_
      intro hOwnPath
      cases hOwnPath
    · intro hStage hEntered
      exact absurd (hIdle.symm.trans hStage) (by simp)
  · rcases hNext with ⟨hReady, rfl⟩ | ⟨hIdle, rfl⟩
    · apply sound_of_fresh
      · exact
          Checkpoint.steady_of_qualifying rfl hReady.2.2
            (fun _ => hValid)
      · rfl
    · constructor
      · exact
          Checkpoint.steady_of_rest hIdle (fun _ => hValid)
      · intro hStage hEntered
        exact absurd (hIdle.symm.trans hStage) (by simp)

end Updater

end Fota
