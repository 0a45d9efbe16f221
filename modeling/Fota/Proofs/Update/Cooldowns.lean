import Fota.Proofs.Update.ForwardWalk
import Mathlib.Data.List.Chain

/-
  This file shows that cooldowns bound how often an updater
  works on its stages. Work leaves the cooldown behind that the
  policy sets for where it leads, nothing but work ends one, and
  a tick during one only looks for notices and at the clock.

  Key definitions include:
    * `Stage.poll`
    * `Stage.pause`
    * `Turn.Spaced`
    * `Turn.Follows`
    * `Turn.Paced`

  The main statement is `Life.work_paced_by_cooldowns`.
-/

namespace Fota

open Update (Exchange Policy Script Setting Talk)

------------------------------------------------------------
-- Pauses
------------------------------------------------------------

namespace Stage

/- How long a policy lets an updater pause in a stage. -/
def poll
    (policy : Policy) : Stage → UInt32
| downloadCellConnecting => policy.cellularConnectPoll
| downloadHttpsSetup => policy.httpsSetupRetryCooldown
| installStarting => policy.installStartPoll
| installWaiting => policy.installProbePoll
| _ => 0

/- How long it pauses after work, by where that has led. -/
def pause
    (policy : Policy)
    (stage next : Stage) : UInt32 :=
  if next = stage then
    stage.poll policy
  else
    match stage, next with
    | qualifyRetry, qualifyFlags => policy.qualifyRetryCooldown
    | setupCloudConnected, downloadCloudDisconnect =>
        policy.publishStartCooldown
    | downloadCloudDisconnect, downloadCellDisconnecting =>
        policy.cloudDisconnectCooldown
    | _, _ => 0

end Stage

------------------------------------------------------------
-- Set Cooldowns
------------------------------------------------------------

namespace Updater

variable
  {u late early next : Updater}
  {now : Instant}
  {entered : Bool}
  {stage : Stage}

/- The cooldown is the one that work has to leave behind. -/
def Cools
    (now : Instant)
    (u next : Updater) : Prop :=
  next.cooldown =
    Cooldown.arm now
      (Stage.pause u.policy u.stage next.stage)

/- Work that stays in its stage pauses as long as that takes, -/
theorem cools_of_stays
    {duration : UInt32}
    (hStage : u.stage = stage)
    (hNext : next.cooldown = Cooldown.arm now duration)
    (hSame : next.stage = u.stage)
    (hPoll : stage.poll u.policy = duration) :
    u.Cools now next := by
  unfold Cools Stage.pause
  rw [if_pos hSame, hStage, hPoll]
  exact hNext

/- or not at all. -/
theorem cools_of_rests
    (hStage : u.stage = stage)
    (hNone : next.cooldown = none)
    (hSame : next.stage = u.stage)
    (hPoll : stage.poll u.policy = 0) :
    u.Cools now next := by
  have hNext : next.cooldown = Cooldown.arm now 0 := hNone
  exact cools_of_stays hStage hNext hSame hPoll

theorem cools_of_waits
    {timeout : UInt32}
    (hLate : u.Cools now late)
    (hEarly : u.Cools now early) :
    u.Cools now (u.waits now timeout late early) := by
  unfold waits
  split
  · exact hLate
  · exact hEarly

/- An offer does not touch the cooldown. -/
theorem offered_cooldown
    {version : UInt32}
    {offer : Updater}
    (hOffered : u.offered? version = some offer) :
    offer.cooldown = u.cooldown ∧
      offer.stage = .setupCloudConnect := by
  unfold offered? selectPath withVersion at hOffered
  dsimp only at hOffered
  split at hOffered
  · split at hOffered
    · cases hOffered
      exact ⟨rfl, rfl⟩
    · cases hOffered
  · cases hFound : UpgradePath.find? version with
    | none =>
        rw [hFound] at hOffered
        cases hOffered
    | some path =>
        rw [hFound] at hOffered
        cases hOffered
        exact ⟨rfl, rfl⟩

/- Work may go on without a pause where none is due, -/
theorem cools_moveTo
    {w : Updater}
    {target : Stage}
    (hStage : u.stage = stage)
    (hNone : w.cooldown = none)
    (hPause : Stage.pause u.policy stage target = 0) :
    u.Cools now (w.moveTo target) := by
  change w.cooldown = Cooldown.arm now (Stage.pause _ _ target)
  rw [hStage, hPause, hNone]
  rfl

/- also where the run has failed. -/
theorem cools_fail
    {w : Updater}
    {cause : Failure}
    {target : Stage}
    (hStage : u.stage = stage)
    (hNone : w.cooldown = none)
    (hPause : Stage.pause u.policy stage target = 0) :
    u.Cools now (w.fail cause target) :=
  cools_moveTo hStage hNone hPause

theorem cools_qualifyRetry
    (hStage : u.stage = .qualifyRetry)
    (hNone : u.cooldown = none) :
    u.Cools now (u.qualifyRetry now) := by
  unfold qualifyRetry
  dsimp only
  split
  · exact cools_moveTo hStage hNone rfl
  · unfold Cools
    rw [hStage]
    rfl

theorem cools_owning
    (hStage : u.stage = .downloadCloudDisconnect) :
    u.Cools now (u.owning now) := by
  unfold Cools
  rw [hStage]
  rfl

theorem cools_publishRefused
    (hStage : u.stage = .setupCloudConnected)
    (hNone : u.cooldown = none) :
    u.Cools now u.publishRefused := by
  unfold publishRefused
  dsimp only
  split
  · exact cools_fail hStage hNone rfl
  · exact cools_of_rests hStage hNone rfl rfl

theorem cools_setupRefused
    (hStage : u.stage = .downloadHttpsSetup)
    (hNone : u.cooldown = none) :
    u.Cools now (u.setupRefused now) := by
  unfold setupRefused
  dsimp only
  split
  · exact cools_fail hStage hNone rfl
  · exact cools_of_stays hStage rfl rfl rfl

theorem cools_attemptLost
    (hStage : u.stage = .downloadReady)
    (hNone : u.cooldown = none) :
    u.Cools now u.attemptLost := by
  unfold attemptLost
  dsimp only
  split
  · exact cools_fail hStage hNone rfl
  · exact cools_of_rests hStage hNone rfl rfl

theorem cools_exitDelayed
    (hStage : u.stage = .finishedCloudConnecting)
    (hNone : u.cooldown = none) :
    u.Cools now u.exitDelayed := by
  unfold exitDelayed
  dsimp only
  split
  · exact cools_fail hStage hNone rfl
  · exact cools_moveTo hStage hNone rfl

theorem cools_judged
    {version : UInt32}
    {complete : Bool}
    (hStage : u.stage = .installWaiting)
    (hNone : u.cooldown = none) :
    u.Cools now (u.judged now version complete) := by
  unfold judged
  split
  · exact cools_fail hStage hNone rfl
  · exact cools_moveTo hStage hNone rfl
  · apply cools_of_waits
    · exact cools_fail hStage hNone rfl
    · exact cools_of_stays hStage rfl rfl rfl

/-
  Work leaves the cooldown behind that is due. A tick works only
  when none is left from before, so there is none on the way.
-/
theorem cools_of_mayBecome
    (hNext : u.MayBecome now entered stage next)
    (hStage : u.stage = stage)
    (hNone : u.cooldown = none) :
    u.Cools now next := by
  have hStays (hPoll : stage.poll u.policy = 0) :
      u.Cools now u :=
    cools_of_rests hStage hNone rfl hPoll
  cases stage <;> simp only [MayBecome] at hNext
  case idle =>
    rcases hNext with rfl | rfl <;>
      exact cools_of_rests hStage hNone rfl rfl
  case qualifyFlags =>
    rcases hNext with rfl | rfl | rfl | rfl <;>
      exact cools_moveTo hStage hNone rfl
  case qualifyModemOn =>
    rcases hNext with rfl | rfl | ⟨version, hVersion, hOffer⟩
    · exact hStays rfl
    · exact cools_moveTo hStage hNone rfl
    · cases hOffered : u.offered? version with
      | none =>
          rw [hOffered] at hOffer
          rw [hOffer]
          exact cools_moveTo hStage hNone rfl
      | some offer =>
          have hKept := offered_cooldown hOffered
          rw [hNone] at hKept
          rw [hOffered] at hOffer
          rcases hOffer with rfl | rfl
          · exact cools_moveTo hStage hKept.1 rfl
          · unfold Cools
            rw [hKept.1, hKept.2, hStage]
            rfl
  case qualifyRetry =>
    rw [hNext]
    exact cools_qualifyRetry hStage hNone
  case setupCloudConnect =>
    rw [hNext]
    exact cools_moveTo hStage hNone rfl
  case setupCloudConnecting =>
    rcases hNext with rfl | rfl
    · exact cools_moveTo hStage hNone rfl
    · exact
        cools_of_waits (cools_fail hStage hNone rfl) (hStays rfl)
  case setupCloudConnected =>
    rcases hNext with rfl | rfl
    · unfold Cools
      rw [hStage]
      rfl
    · exact cools_publishRefused hStage hNone
  case downloadCloudDisconnect =>
    rcases hNext with rfl | rfl
    · exact cools_owning hStage
    · exact cools_of_waits (cools_owning hStage) (hStays rfl)
  case downloadCellDisconnecting =>
    rcases hNext with rfl | rfl
    · exact cools_moveTo hStage hNone rfl
    · exact
        cools_of_waits (cools_fail hStage hNone rfl) (hStays rfl)
  case downloadCellConnecting =>
    rcases hNext with rfl | rfl
    · exact cools_moveTo hStage hNone rfl
    · exact
        cools_of_waits (cools_fail hStage hNone rfl)
          (cools_of_stays hStage rfl rfl rfl)
  case downloadHttpsSetup =>
    rcases hNext with rfl | rfl
    · exact cools_moveTo hStage hNone rfl
    · exact cools_setupRefused hStage hNone
  case downloadReady =>
    cases hPending : u.time.pendingSince with
    | none =>
        rw [hPending] at hNext
        rcases hNext with rfl | rfl
        · exact cools_of_rests hStage hNone rfl rfl
        · exact cools_attemptLost hStage hNone
    | some since =>
        rw [hPending] at hNext
        rcases hNext with rfl | rfl | ⟨_, rfl⟩
        · exact cools_moveTo hStage hNone rfl
        · exact cools_attemptLost hStage hNone
        · exact hStays rfl
  case installCellDisconnecting =>
    rcases hNext with rfl | rfl
    · exact cools_moveTo hStage hNone rfl
    · exact
        cools_of_waits (cools_fail hStage hNone rfl) (hStays rfl)
  case installStarting =>
    cases entered with
    | true =>
        rcases hNext with ⟨version, rfl | rfl⟩
        · exact cools_fail hStage hNone rfl
        · exact cools_of_stays hStage rfl rfl rfl
    | false =>
        rcases hNext with rfl | rfl
        · exact cools_moveTo hStage hNone rfl
        · exact
            cools_of_waits (cools_fail hStage hNone rfl)
              (cools_of_stays hStage rfl rfl rfl)
  case installWaiting =>
    cases entered with
    | true =>
        cases hNext
        exact cools_of_stays hStage rfl rfl rfl
    | false =>
        rcases hNext with ⟨version, complete, rfl⟩
        exact cools_judged hStage hNone
  case finishedPowerOff =>
    rw [hNext]
    exact cools_moveTo hStage hNone rfl
  case finishedPoweringOff =>
    rcases hNext with rfl | rfl
    · exact cools_moveTo hStage hNone rfl
    · exact
        cools_of_waits (cools_fail hStage hNone rfl) (hStays rfl)
  case finishedCloudConnecting =>
    rcases hNext with rfl | rfl
    · exact cools_moveTo hStage hNone rfl
    · exact
        cools_of_waits (cools_exitDelayed hStage hNone)
          (hStays rfl)
  case finishedCloudConnected =>
    rcases hNext with rfl | rfl
    · exact cools_moveTo hStage hNone rfl
    · exact cools_fail hStage hNone rfl
  case finishedIdle =>
    rw [hNext]
    exact cools_moveTo hStage hNone rfl

end Updater

------------------------------------------------------------
-- Turns in a Row
------------------------------------------------------------

namespace Turn

/- The updater worked on its stage in the turn. -/
def isWork
    (turn : Turn) : Bool :=
  turn.workedAt?.isSome

/- How long the updater pauses after it has worked. -/
def pause
    (turn : Turn) : UInt32 :=
  Stage.pause turn.before.policy turn.before.stage
    turn.after.stage

/- Two turns worked, with at least some time in between. -/
def Spaced
    (duration : UInt32)
    (earlier later : Turn) : Prop :=
  ∃ t ∈ earlier.workedAt?, ∃ t' ∈ later.workedAt?,
    t.Elapsed duration t'

/- A turn works on where the one before it led, after a pause. -/
structure Follows
    (earlier later : Turn) : Prop where
  stage : later.before.stage = earlier.after.stage
  spaced : Spaced earlier.pause earlier later

variable
  {turn : Turn}
  {now : Instant}
  {rest : List Exchange}
  {duration : UInt32}

instance : Trans (Spaced duration) (Spaced duration)
    (Spaced duration) where
  trans := by
    rintro earlier middle later
      ⟨t, hEarlier, t', hMiddle, hFirst⟩
      ⟨t₁, hSame, t'', hLater, hSecond⟩
    cases (Option.mem_def.mp hMiddle).symm.trans hSame
    exact ⟨t, hEarlier, t'', hLater, hFirst.trans hSecond⟩

/- Work waits for the cooldown to be over, -/
theorem Works.over
    (hWorks : turn.Works now rest) :
    Cooldown.update now turn.before.cooldown = none := by
  have hWorked := hWorks.worked
  rw [workedAt?_of_talk hWorks.tick hWorks.talk] at hWorked
  by_contra hLeft
  rw [if_neg hLeft] at hWorked
  cases hWorked

/- and sets the next one. -/
theorem Works.cooldown
    (hWorks : turn.Works now rest) :
    turn.after.cooldown = Cooldown.arm now turn.pause := by
  have hCools : (turn.before.entering now).Cools now turn.after :=
    Updater.cools_of_mayBecome hWorks.mayBecome rfl rfl
  exact hCools

/- A tick in a cooldown hears notices and reads the clock. -/
theorem rests_of_cooldown
    (hTick : turn.call = .tick)
    (hUnfolds :
      (turn.call.carryOut turn.before).Unfolds turn.talk
        (some turn.after))
    (hClock : now ∈ turn.talk.findSome? Exchange.clock?)
    {cooldown : Cooldown}
    (hCooldown : cooldown ∈ turn.before.cooldown)
    (hEarly : ¬ cooldown.since.Elapsed cooldown.duration now) :
    turn.after = turn.before ∧
      turn.talk = [⟨.hearNotices, ()⟩, ⟨.now, now⟩] := by
  rw [hTick] at hUnfolds
  rcases unfolds_tick hUnfolds with
    ⟨-, hTalk, -⟩ | ⟨read, rest, hTalk, hEnd⟩
  · rw [hTalk] at hClock
    cases hClock
  · rw [hTalk] at hClock
    cases (show some read = some now from hClock)
    rcases hEnd with ⟨left, -, rfl, hAfter⟩ | ⟨hOver, -⟩
    · exact ⟨hAfter, hTalk⟩
    · rw [Cooldown.update_eq_none_iff] at hOver
      exact absurd (hOver cooldown hCooldown) hEarly

/- A command is sent at work only. -/
theorem isWork_of_command
    (hUnfolds :
      (turn.call.carryOut turn.before).Unfolds turn.talk
        (some turn.after))
    (hCommand : turn.talk.any Exchange.isCommand = true) :
    turn.isWork = true := by
  rcases works_or_rests hUnfolds with
    ⟨now, rest, hWorks⟩ | hRests
  · unfold isWork
    rw [hWorks.worked]
    rfl
  · rcases List.any_eq_true.mp hCommand with
      ⟨⟨question, answer⟩, hMem, hSent⟩
    have hQuiet := hRests.quiet _ hMem
    cases question with
    | command command =>
        simp [Updater.quietQuestions, Updater.requestQuestions]
          at hQuiet
    | _ => cases hSent

theorem exists_works_of_isWork
    (hUnfolds :
      (turn.call.carryOut turn.before).Unfolds turn.talk
        (some turn.after))
    (hWork : turn.isWork = true) :
    ∃ now rest, turn.Works now rest := by
  rcases works_or_rests hUnfolds with hWorks | hRests
  · exact hWorks
  · unfold isWork at hWork
    rw [hRests.idle] at hWork
    cases hWork

/- A start that is published leads on to the disconnect. -/
theorem Works.after_of_start
    (hWorks : turn.Works now rest)
    (hStart : turn.talk.any Exchange.isStartPublished = true) :
    turn.before.stage = .setupCloudConnected ∧
      turn.after.stage = .downloadCloudDisconnect := by
  have hBefore :
      turn.before.stage = .setupCloudConnected := by
    apply (hWorks.publishes .start).before
    rcases List.any_eq_true.mp hStart with ⟨e, hMem, hPublished⟩
    exact List.countP_pos_iff.mpr ⟨e, hMem, hPublished⟩
  refine ⟨hBefore, ?_⟩
  have hWork := hWorks.work
  unfold Updater.work at hWork
  rw [show (turn.before.entering now).stage = _ from hBefore]
    at hWork
  have hAfter := Updater.unfolds_setupCloudConnected hWork
  rw [hWorks.talk] at hStart
  rw [hAfter,
    if_pos (by simpa [Exchange.isStartPublished] using hStart)]
  rfl

end Turn

------------------------------------------------------------
-- Runs
------------------------------------------------------------

/-
  The turns of a run have left an updater behind: each turn that
  has worked has followed on the one before it, and the last of
  them has led to the stage and set the cooldown.
-/
structure Updater.Left
    (turns : List Turn)
    (u : Updater) : Prop where
  policy : ∀ turn ∈ turns, turn.before.policy = u.policy
  row : (turns.filter Turn.isWork).IsChain Turn.Follows
  last :
    ∀ turn ∈ (turns.filter Turn.isWork).getLast?,
      u.stage = turn.after.stage ∧
        ∃ t ∈ turn.workedAt?,
          u.cooldown = Cooldown.arm t turn.pause

theorem Updater.left_nil
    (u : Updater) :
    u.Left [] := by
  constructor
  · simp
  · exact List.isChain_nil
  · simp

namespace Turn

variable
  {turn : Turn}
  {turns : List Turn}
  {now : Instant}
  {rest : List Exchange}

/- A turn without work adds nothing to the row, -/
theorem Rests.left
    (hRests : turn.Rests)
    (hGoesOn : ¬ turn.Begins)
    (hLeft : turn.before.Left turns) :
    turn.after.Left (turns ++ [turn]) := by
  have hAlike := hRests.alike hGoesOn
  have hIdle : ¬ turn.isWork = true := by
    unfold isWork
    rw [hRests.idle]
    exact Bool.false_ne_true
  have hRow :
      (turns ++ [turn]).filter isWork = turns.filter isWork := by
    rw [List.filter_append, List.filter_cons_of_neg hIdle,
      List.filter_nil, List.append_nil]
  constructor
  · rw [List.forall_mem_append, List.forall_mem_singleton,
      hAlike.policy]
    exact ⟨hLeft.policy, rfl⟩
  · rw [hRow]
    exact hLeft.row
  · rw [hRow, hAlike.stage, hAlike.cooldown]
    exact hLeft.last

/- one that works comes after the pause that was due, -/
theorem Works.follows
    {earlier : Turn}
    (hWorks : turn.Works now rest)
    (hLast :
      turn.before.stage = earlier.after.stage ∧
        ∃ t ∈ earlier.workedAt?,
          turn.before.cooldown =
            Cooldown.arm t earlier.pause) :
    Follows earlier turn := by
  rcases hLast with ⟨hStage, t, hEarlier, hCooldown⟩
  have hOver := hWorks.over
  rw [hCooldown] at hOver
  exact
    ⟨hStage, t, hEarlier, now, hWorks.worked,
      Cooldown.elapsed_of_arm hOver⟩

/- and is the last one in the row. -/
theorem Works.left
    (hWorks : turn.Works now rest)
    (hLeft : turn.before.Left turns) :
    turn.after.Left (turns ++ [turn]) := by
  have hWork : turn.isWork = true := by
    unfold isWork
    rw [hWorks.worked]
    rfl
  have hRow :
      (turns ++ [turn]).filter isWork =
        turns.filter isWork ++ [turn] := by
    rw [List.filter_append, List.filter_cons_of_pos hWork,
      List.filter_nil]
  constructor
  · rw [List.forall_mem_append, List.forall_mem_singleton,
      hWorks.keeps.policy]
    exact ⟨hLeft.policy, rfl⟩
  · rw [hRow]
    apply hLeft.row.append (List.isChain_singleton turn)
    intro earlier hEarlier later hLater
    cases hLater
    exact hWorks.follows (hLeft.last earlier hEarlier)
  · rw [hRow, List.getLast?_concat]
    intro last hLast
    cases hLast
    exact ⟨rfl, now, hWorks.worked, hWorks.cooldown⟩

end Turn

namespace Life

variable
  {s : Setting}
  {turns : List Turn}
  {l : Life}

/- What is in a run is a turn from one moment to another. -/
theorem Run.exists_takes
    {turn : Turn}
    (hRun : l.Run s turns)
    (hMem : turn ∈ turns) :
    ∃ before after : Life, turn.Takes s before after := by
  induction hRun with
  | boots _ => cases hMem
  | begins _ _ _ _ => cases hMem
  | goesOn _ hTakes _ ih =>
      rcases List.mem_append.mp hMem with hMem | hMem
      · exact ih hMem
      · rw [List.mem_singleton.mp hMem]
        exact ⟨_, _, hTakes⟩

/- An updater is where the turns of its run have left it. -/
theorem Run.left
    (hRun : l.Run s turns) :
    ∀ u ∈ l.updater, u.Left turns := by
  induction hRun with
  | boots _ => exact fun u _ => u.left_nil
  | begins _ _ _ _ => exact fun u _ => u.left_nil
  | goesOn _ hTakes hGoesOn ih =>
      intro u hMem
      rw [hTakes.after, Option.mem_some] at hMem
      rw [← hMem]
      have hBefore := ih _ hTakes.before
      rcases Turn.works_or_rests hTakes.unfolds with
        ⟨now, rest, hWorks⟩ | hRests
      · exact hWorks.left hBefore
      · exact hRests.left hGoesOn hBefore

end Life

------------------------------------------------------------
-- Paced Work
------------------------------------------------------------

namespace Turn

/-
  The turns of a run are paced by a policy. Within a stay in a
  stage, any two that work are as far apart as the policy has
  it, and no command is sent in others. Qualifying again and the
  disconnect before the download, when they are worked on next,
  keep their distance too. A tick in a cooldown only looks for
  notices and at the clock.
-/
structure Paced
    (policy : Policy)
    (turns : List Turn) : Prop where
  polls :
    ∀ stage stay, stay <:+: turns →
      (∀ turn ∈ stay, turn.before.stage = stage) →
        (stay.filter isWork).Pairwise
          (Spaced (stage.poll policy))
  commands :
    ∀ turn ∈ turns, turn.talk.any Exchange.isCommand = true →
      turn.isWork = true
  retries :
    ∀ earlier later,
      [earlier, later] <:+: turns.filter isWork →
        earlier.before.stage = .qualifyRetry →
          later.before.stage = .qualifyFlags →
            Spaced policy.qualifyRetryCooldown earlier later
  starts :
    ∀ earlier later,
      [earlier, later] <:+: turns.filter isWork →
        earlier.talk.any Exchange.isStartPublished = true →
          later.before.stage = .downloadCloudDisconnect ∧
            Spaced policy.publishStartCooldown earlier later
  gated :
    ∀ turn ∈ turns, turn.call = .tick →
      ∀ now ∈ turn.talk.findSome? Exchange.clock?,
        ∀ cooldown ∈ turn.before.cooldown,
          ¬ cooldown.since.Elapsed cooldown.duration now →
            turn.after = turn.before ∧
              turn.talk = [⟨.hearNotices, ()⟩, ⟨.now, now⟩]

end Turn

namespace Updater.Left

open Turn (Follows Spaced isWork)

variable
  {u : Updater}
  {turns : List Turn}

/- Two turns that work in a row follow on each other. -/
theorem follows
    {earlier later : Turn}
    (hLeft : u.Left turns)
    (hRow : [earlier, later] <:+: turns.filter isWork) :
    Follows earlier later ∧
      earlier.before.policy = u.policy := by
  have hMem : earlier ∈ turns.filter isWork :=
    hRow.subset List.mem_cons_self
  have hPair : [earlier, later].IsChain Follows :=
    List.IsChain.infix hLeft.row hRow
  exact
    ⟨List.isChain_pair.mp hPair,
      hLeft.policy earlier (List.mem_of_mem_filter hMem)⟩

/- Work that stays in a stage keeps to the pause of that. -/
theorem polls
    {stage : Stage}
    {stay : List Turn}
    (hLeft : u.Left turns)
    (hPart : stay <:+: turns)
    (hStay : ∀ turn ∈ stay, turn.before.stage = stage) :
    (stay.filter isWork).Pairwise
      (Spaced (stage.poll u.policy)) := by
  have hRow : (stay.filter isWork).IsChain Follows :=
    List.IsChain.infix hLeft.row (hPart.filter isWork)
  apply List.IsChain.pairwise
  apply hRow.imp_of_mem_imp
  intro earlier later hEarlier hLater hFollows
  have hIn := List.mem_of_mem_filter hEarlier
  have hNext := hStay later (List.mem_of_mem_filter hLater)
  have hPause : earlier.pause = stage.poll u.policy := by
    unfold Turn.pause Stage.pause
    rw [← hFollows.stage, hNext, hStay earlier hIn, if_pos rfl,
      hLeft.policy earlier (hPart.subset hIn)]
  rw [← hPause]
  exact hFollows.spaced

end Updater.Left

/-
  Cooldowns bound how often an updater works in a run, whatever
  its policy, its surroundings and its clock. How often it is
  called does not matter.
-/
theorem Life.work_paced_by_cooldowns
    {s : Setting}
    {turns : List Turn}
    {l : Life}
    (hRun : l.Run s turns) :
    ∀ u ∈ l.updater, Turn.Paced u.policy turns := by
  intro u hMem
  have hLeft := hRun.left u hMem
  constructor
  · intro stage stay hPart hStay
    exact hLeft.polls hPart hStay
  · intro turn hTurn hCommand
    rcases hRun.exists_takes hTurn with ⟨_, _, hTakes⟩
    exact Turn.isWork_of_command hTakes.unfolds hCommand
  · intro earlier later hRow hEarlier hLater
    rcases hLeft.follows hRow with ⟨hFollows, hPolicy⟩
    have hSpaced := hFollows.spaced
    unfold Turn.pause at hSpaced
    rw [← hFollows.stage, hEarlier, hLater, hPolicy] at hSpaced
    exact hSpaced
  · intro earlier later hRow hStart
    rcases hLeft.follows hRow with ⟨hFollows, hPolicy⟩
    have hEarlier : earlier ∈ turns.filter Turn.isWork :=
      hRow.subset List.mem_cons_self
    rcases List.mem_filter.mp hEarlier with ⟨hTurn, hWork⟩
    rcases hRun.exists_takes hTurn with ⟨_, _, hTakes⟩
    rcases Turn.exists_works_of_isWork hTakes.unfolds hWork with
      ⟨now, rest, hWorks⟩
    rcases hWorks.after_of_start hStart with ⟨hBefore, hAfter⟩
    have hSpaced := hFollows.spaced
    unfold Turn.pause at hSpaced
    rw [hBefore, hAfter, hPolicy] at hSpaced
    exact ⟨hFollows.stage.trans hAfter, hSpaced⟩
  · intro turn hTurn hTick now hClock cooldown hCooldown hEarly
    rcases hRun.exists_takes hTurn with ⟨_, _, hTakes⟩
    exact
      Turn.rests_of_cooldown hTick hTakes.unfolds hClock
        hCooldown hEarly

/-
  The smooth script, but for a network that is not found, and
  with a second between any two questions after the first ones.
-/
def Update.Script.unregistered : Script where
  notices := Script.smooth.notices
  answer c
  | .command .operator => ⟨.ok, ["+COPS: 0"]⟩
  | .now => .ofNat (60000000 + 1000 * c.past.length)
  | question => Script.smooth.answer c question

/- A run that looks for a network, with quick ticks so far. -/
def Replay.unregistered
    (count : Nat) : Replay :=
  ((start .smooth .standard true (Life.qualified 2)).ticks
    .smooth 6).ticks .unregistered count

/-
  Every other quick tick finds the updater in a cooldown; the
  others look for a network, no more often than they may.
-/
theorem Life.work_paced_without_network :
    let stay := (Replay.unregistered 7).turns.drop 6
    stay.map (fun turn => (turn.isWork, turn.talk.length)) =
        [(true, 4), (false, 2), (true, 3), (false, 2),
          (true, 3), (false, 2), (true, 3)] ∧
      (stay.filter Turn.isWork).Pairwise
        (Turn.Spaced Policy.standard.cellularConnectPoll) := by
  have hMoment :
      ((Replay.unregistered 7).turns.drop 6).map
            (fun turn => (turn.isWork, turn.talk.length)) =
          [(true, 4), (false, 2), (true, 3), (false, 2),
            (true, 3), (false, 2), (true, 3)] ∧
        (∀ turn ∈ (Replay.unregistered 7).turns.drop 6,
          turn.before.stage = .downloadCellConnecting) ∧
          ∃ u ∈ (Replay.unregistered 7).life.updater,
            u.policy = .standard := by
    decide +kernel
  have hRun : (Replay.unregistered 7).Sound :=
    ((Replay.sound_start _ _ _).ticks 6).ticks 7
  rcases hMoment with ⟨hTurns, hStay, u, hMem, hPolicy⟩
  have hPaced := work_paced_by_cooldowns hRun u hMem
  rw [hPolicy] at hPaced
  exact
    ⟨hTurns,
      hPaced.polls .downloadCellConnecting _
        (List.drop_suffix 6 _).isInfix hStay⟩

end Fota
