import Fota.Proofs.Update.Frames

/-
  This file defines what an updater tries again: to qualify, to
  publish the start, to set the transfer up and to come back to
  the cloud. What a turn asked and was answered tells whether it
  missed one of these; a miss is counted, and the count decides
  whether the updater tries again or gives up.

  Key definitions include:
    * `Retry`
    * `Turn.misses`
    * `Turn.TriesAgain`
    * `Turn.GivesUp`
    * `Turn.Counts`

  The main statements are `Turn.Works.retries` and
  `Turn.Works.count_eq`.
-/

namespace Fota

open Update (Exchange Policy Question Talk)

------------------------------------------------------------
-- Counts
------------------------------------------------------------

/- A count grows by one, up to its largest value. -/
theorem Retries.toNat_more
    (count : UInt8) :
    (Retries.more count).toNat = min (count.toNat + 1) 255 := by
  have hBound := count.toNat_lt
  unfold Retries.more
  split
  · rename_i hFull
    rw [hFull]
    rfl
  · rename_i hRoom
    have hBelow : count.toNat ≠ 255 := by
      intro hFull
      exact hRoom (UInt8.toNat_inj.mp hFull)
    rw [UInt8.toNat_add, UInt8.toNat_one]
    omega

------------------------------------------------------------
-- Retries
------------------------------------------------------------

/- What an updater tries again. -/
inductive Retry where
| qualify
| publishStart
| httpsSetup
| cloudConnectExit
deriving DecidableEq, Repr

namespace Retry

/- The stage whose work may have to be tried again. -/
def stage : Retry → Stage
| qualify => .qualifyRetry
| publishStart => .setupCloudConnected
| httpsSetup => .downloadHttpsSetup
| cloudConnectExit => .finishedCloudConnecting

/- How often it may be tried again. -/
def limit
    (policy : Policy) : Retry → UInt8
| qualify => policy.qualifyRetryMax
| publishStart => policy.publishStartRetryMax
| httpsSetup => policy.httpsSetupRetryMax
| cloudConnectExit => policy.cloudConnectExitRetryMax

/- How often it was tried again. -/
def count
    (retries : Retries) : Retry → UInt8
| qualify => retries.qualify
| publishStart => retries.publishStart
| httpsSetup => retries.httpsSetup
| cloudConnectExit => retries.cloudConnectExit

/- The stage from which it is tried again. -/
def again : Retry → Stage
| qualify => .qualifyFlags
| publishStart => .setupCloudConnected
| httpsSetup => .downloadHttpsSetup
| cloudConnectExit => .finishedPowerOff

/- The stage in which the run ends when it is given up. -/
def halt : Retry → Stage
| qualify => .idle
| _ => .finishedIdle

/- The failure as which it is given up, if it is one. -/
def cause? : Retry → Option Failure
| qualify => none
| publishStart => some .publishStart
| httpsSetup => some .httpsSetup
| cloudConnectExit => some .cloudConnectOnExitTimeout

end Retry

------------------------------------------------------------
-- Misses
------------------------------------------------------------

namespace Update.Exchange

/- The cloud was told that a run has started. -/
def isStartPublished : Exchange → Bool
| ⟨.publish .started, published⟩ => published
| _ => false

/- There is a session with the cloud. -/
def isCloudConnected : Exchange → Bool
| ⟨.isCloudConnected, connected⟩ => connected
| _ => false

/- The modem has accepted a command. -/
def accepts
    (command : Command) : Exchange → Bool
| ⟨.command other, reply⟩ =>
    decide (other = command) && reply.outcome.isOk
| _ => false

end Update.Exchange

/- Publishing looks for a session first. -/
theorem Update.talk_of_publish
    {event : Update.Event}
    {talk : List Exchange}
    {published : Bool}
    (hUnfolds :
      (Talk.publish event).Unfolds talk (some published)) :
    (talk = [⟨.isCloudConnected, false⟩] ∧
      published = false) ∨
      talk =
        [⟨.isCloudConnected, true⟩,
          ⟨.publish event, published⟩] := by
  unfold Talk.publish at hUnfolds
  simp only [Talk.isCloudConnected, Dialogue.pure_eq_done,
    Dialogue.ask_bind, Dialogue.done_bind,
    Dialogue.unfolds_ask] at hUnfolds
  rcases hUnfolds with ⟨connected, rest, rfl, hRest⟩
  cases connected with
  | false =>
      simp at hRest
      exact .inl ⟨by rw [hRest.1], hRest.2⟩
  | true =>
      simp at hRest
      exact .inr (by rw [hRest])

/- The commands that point the modem at a server. -/
def Procedure.transferCommands
    (server : Server) : List Command :=
  [.clearSecurity server.security,
    .clearTransfer,
    .transferHost server.host,
    .transferPort server.port,
    .transferSecurity server.security]

------------------------------------------------------------
-- Retried Stages
------------------------------------------------------------

namespace Updater

variable
  {u next : Updater}
  {now : Instant}
  {entered : Bool}
  {talk : List Exchange}

/- Publishing the start tells whether that was published. -/
theorem unfolds_publish
    {published : Bool}
    (hUnfolds :
      (Talk.publish .started).Unfolds talk (some published)) :
    published = talk.any Exchange.isStartPublished := by
  rcases Update.talk_of_publish hUnfolds with ⟨rfl, rfl⟩ | rfl
  · rfl
  · simp [Exchange.isStartPublished]

theorem setupCloudConnected_eq :
    u.setupCloudConnected now =
      Talk.publish .started >>= fun published =>
        .done
          (if published then
            ((u.setStatus .downloading).cool now
              u.policy.publishStartCooldown).moveTo
                .downloadCloudDisconnect
          else
            u.publishRefused) := by
  unfold setupCloudConnected publishRefused
  congr 1
  funext published
  cases published with
  | true =>
      rfl
  | false =>
      exact (apply_ite Dialogue.done _ _ _).symm

/- The start is published, or that is tried again. -/
theorem unfolds_setupCloudConnected
    (hUnfolds :
      (u.setupCloudConnected now).Unfolds talk (some next)) :
    next =
      if talk.any Exchange.isStartPublished then
        ((u.setStatus .downloading).cool now
          u.policy.publishStartCooldown).moveTo
            .downloadCloudDisconnect
      else
        u.publishRefused := by
  rw [setupCloudConnected_eq, Dialogue.unfolds_bind] at hUnfolds
  rcases hUnfolds with
    ⟨published, first, second, rfl, hPublish, hNext⟩
  rw [Dialogue.unfolds_done] at hNext
  rcases hNext with ⟨rfl, hNext⟩
  rw [List.append_nil, ← unfolds_publish hPublish]
  exact hNext

/- A plain command is accepted if the modem says so. -/
theorem unfolds_carryOut
    {command : Command}
    {outcome : Outcome}
    (hUnfolds :
      (Talk.carryOut (Procedure.carryOut command)).Unfolds talk
        (some outcome)) :
    outcome.isOk = talk.any (Exchange.accepts command) ∧
      ∀ other, command ≠ other →
        talk.any (Exchange.accepts other) = false := by
  rw [Talk.carryOut_carryOut] at hUnfolds
  by_cases hFits : command.Fits
  · rw [if_pos hFits, Dialogue.unfolds_ask] at hUnfolds
    rcases hUnfolds with ⟨reply, rest, rfl, hRest⟩
    rw [Dialogue.unfolds_done] at hRest
    rcases hRest with ⟨rfl, rfl⟩
    constructor
    · simp [Exchange.accepts]
    · intro other hOther
      simp [Exchange.accepts, hOther]
  · rw [if_neg hFits, Dialogue.unfolds_done] at hUnfolds
    rcases hUnfolds with ⟨rfl, rfl⟩
    exact ⟨rfl, fun _ _ => rfl⟩

/- Commands in order are accepted, or one of them is not. -/
theorem unfolds_carryOutAll
    {commands : List Command}
    {outcome : Outcome}
    (hDistinct : commands.Nodup)
    (hUnfolds :
      (Talk.carryOut (Procedure.carryOutAll commands)).Unfolds
        talk (some outcome)) :
    outcome.isOk =
      commands.all
        (fun command => talk.any (Exchange.accepts command)) := by
  induction commands generalizing talk with
  | nil =>
      have hDone : talk = [] ∧ outcome = .ok := by
        simpa [Procedure.carryOutAll, Talk.carryOut]
          using hUnfolds
      rw [hDone.2]
      rfl
  | cons command commands ih =>
      rw [List.nodup_cons] at hDistinct
      unfold Procedure.carryOutAll Talk.carryOut at hUnfolds
      rw [Dialogue.run_bind] at hUnfolds
      change
        (Talk.carryOut (Procedure.carryOut command) >>= _ :
          Talk Outcome).Unfolds _ _ at hUnfolds
      rw [Dialogue.unfolds_bind] at hUnfolds
      rcases hUnfolds with
        ⟨given, first, second, rfl, hFirst, hSecond⟩
      have hGiven := unfolds_carryOut hFirst
      cases hOk : given.isOk with
      | true =>
          rw [hOk, if_pos rfl] at hSecond
          -- No reply to the first command counts for the rest.
          rw [ih hDistinct.2 hSecond, List.all_cons,
            List.any_append, ← hGiven.1, hOk]
          simp only [Bool.true_or, Bool.true_and]
          rw [Bool.eq_iff_iff, List.all_eq_true,
            List.all_eq_true]
          apply forall₂_congr
          intro other hMem
          have hOther : command ≠ other := by
            rintro rfl
            exact hDistinct.1 hMem
          rw [List.any_append, hGiven.2 other hOther,
            Bool.false_or]
      | false =>
          rw [hOk] at hSecond
          have hEnd : second = [] ∧ outcome = given := by
            simpa using hSecond
          rw [hEnd.1, hEnd.2, List.append_nil, List.all_cons,
            ← hGiven.1, hOk, Bool.false_and]

theorem downloadHttpsSetup_eq :
    u.downloadHttpsSetup now =
      Talk.carryOut (Procedure.setUpTransfer u.server) >>=
        fun outcome =>
          .done
            (if outcome.isOk then
              u.moveTo .downloadReady
            else
              u.setupRefused now) := by
  unfold downloadHttpsSetup setupRefused
  congr 1
  funext outcome
  cases hAccepted : outcome.isOk with
  | true =>
      rfl
  | false =>
      exact (apply_ite Dialogue.done _ _ _).symm

/- The transfer is set up, or that is tried again. -/
theorem unfolds_downloadHttpsSetup
    (hUnfolds :
      (u.downloadHttpsSetup now).Unfolds talk (some next)) :
    next =
      if (Procedure.transferCommands u.server).all
          (fun command =>
            talk.any (Exchange.accepts command)) then
        u.moveTo .downloadReady
      else
        u.setupRefused now := by
  rw [downloadHttpsSetup_eq, Dialogue.unfolds_bind] at hUnfolds
  rcases hUnfolds with
    ⟨outcome, first, second, rfl, hSetUp, hNext⟩
  rw [Dialogue.unfolds_done] at hNext
  rcases hNext with ⟨rfl, hNext⟩
  have hDistinct :
      (Procedure.transferCommands u.server).Nodup := by
    simp [Procedure.transferCommands]
  rw [List.append_nil, ← unfolds_carryOutAll hDistinct hSetUp]
  exact hNext

theorem finishedCloudConnecting_eq :
    u.finishedCloudConnecting now entered =
      (if entered then giveModemBack else .done ()) >>= fun _ =>
        Talk.isCloudConnected >>= fun connected =>
          .done
            (if connected then
              u.moveTo .finishedCloudConnected
            else
              u.waits now u.policy.cloudConnectTimeout
                u.exitDelayed u) := by
  unfold finishedCloudConnecting waits exitDelayed
  cases entered <;> simp [apply_ite Dialogue.done]

/- Giving the modem back does not look at the cloud. -/
theorem unfolds_giveModemBack
    (hUnfolds : giveModemBack.Unfolds talk (some ())) :
    talk.any Exchange.isCloudConnected = false := by
  have hAsks :
      giveModemBack.Asks
        (fun question => question ≠ .isCloudConnected) := by
    simp [giveModemBack]
  rw [List.any_eq_false]
  rintro ⟨question, answer⟩ hMem
  have hOther := hUnfolds.asks hAsks _ hMem
  cases question with
  | isCloudConnected =>
      exact absurd rfl hOther
  | _ =>
      exact Bool.false_ne_true

/- The session is there, or its wait goes on or is too long. -/
theorem unfolds_finishedCloudConnecting
    (hUnfolds :
      (u.finishedCloudConnecting now entered).Unfolds talk
        (some next)) :
    next =
      if talk.any Exchange.isCloudConnected then
        u.moveTo .finishedCloudConnected
      else
        u.waits now u.policy.cloudConnectTimeout
          u.exitDelayed u := by
  rw [finishedCloudConnecting_eq, Dialogue.unfolds_bind]
    at hUnfolds
  rcases hUnfolds with
    ⟨_, first, second, rfl, hBack, hLook⟩
  have hFirst :
      first.any Exchange.isCloudConnected = false := by
    cases entered with
    | true =>
        exact unfolds_giveModemBack hBack
    | false =>
        simp at hBack
        rw [hBack]
        rfl
  simp only [Talk.isCloudConnected, Dialogue.ask_bind,
    Dialogue.done_bind, Dialogue.unfolds_ask,
    Dialogue.unfolds_done] at hLook
  rcases hLook with ⟨connected, _, rfl, rfl, hNext⟩
  have hLooked :
      (first ++
        [(⟨.isCloudConnected, connected⟩ : Exchange)]).any
          Exchange.isCloudConnected = connected := by
    rw [List.any_append, hFirst]
    simp [Exchange.isCloudConnected]
  rw [hLooked]
  exact hNext

end Updater

namespace Turn

/- In the turn, there was work on a stage that took too long. -/
def late
    (timeout : UInt32)
    (turn : Turn) : Bool :=
  turn.workedAt?.any
    (fun now => (turn.before.entering now).TimedOut now timeout)

/-
  In the turn, the updater worked on the stage of the retry and
  missed what it was after.
-/
def misses
    (k : Retry)
    (turn : Turn) : Bool :=
  turn.before.stage = k.stage && turn.workedAt?.isSome &&
    match k with
    | .qualify => true
    | .publishStart =>
        ! turn.talk.any Exchange.isStartPublished
    | .httpsSetup =>
        ! (Procedure.transferCommands turn.before.server).all
          (fun command => turn.talk.any (Exchange.accepts command))
    | .cloudConnectExit =>
        ! turn.talk.any Exchange.isCloudConnected &&
          turn.late turn.before.policy.cloudConnectTimeout

/- The turn goes on to try again. -/
structure TriesAgain
    (k : Retry)
    (turn : Turn) : Prop where
  stage : turn.after.stage = k.again
  status : turn.after.status = turn.before.status

/- The turn ends the run. -/
structure GivesUp
    (k : Retry)
    (turn : Turn) : Prop where
  stage : turn.after.stage = k.halt
  status :
    turn.after.status =
      k.cause?.elim turn.before.status .failed

/- The turn counts a retry and, at the limit, gives up. -/
structure Counts
    (k : Retry)
    (turn : Turn) : Prop where
  count :
    k.count turn.after.retries =
      Retries.more (k.count turn.before.retries)
  again :
    ¬ k.limit turn.before.policy < k.count turn.after.retries →
      turn.TriesAgain k
  halt :
    k.limit turn.before.policy < k.count turn.after.retries →
      turn.GivesUp k

variable
  {turn : Turn}
  {now : Instant}
  {rest : List Exchange}

/- A turn that does not work on the stage misses nothing. -/
theorem misses_of_stage
    {k : Retry}
    (hStage : turn.before.stage ≠ k.stage) :
    turn.misses k = false := by
  simp [misses, hStage]

theorem Rests.misses
    (hRests : turn.Rests)
    (k : Retry) :
    turn.misses k = false := by
  simp [Turn.misses, hRests.idle]

/- Where a count decides, the turn counts. -/
theorem counts_of_after
    {k : Retry}
    {halted again : Updater}
    (hAfter :
      turn.after =
        if k.limit turn.before.policy <
            Retries.more (k.count turn.before.retries) then
          halted
        else
          again)
    (hHaltCount :
      k.count halted.retries =
        Retries.more (k.count turn.before.retries))
    (hHalt :
      halted.stage = k.halt ∧
        halted.status = k.cause?.elim turn.before.status .failed)
    (hAgainCount :
      k.count again.retries =
        Retries.more (k.count turn.before.retries))
    (hAgain :
      again.stage = k.again ∧
        again.status = turn.before.status) :
    turn.Counts k := by
  split at hAfter
  · rename_i hLimit
    rw [← hHaltCount, ← hAfter] at hLimit
    rw [← hAfter] at hHalt hHaltCount
    exact
      ⟨hHaltCount, fun hWithin => absurd hLimit hWithin,
        fun _ => ⟨hHalt.1, hHalt.2⟩⟩
  · rename_i hLimit
    rw [← hAgainCount, ← hAfter] at hLimit
    rw [← hAfter] at hAgain hAgainCount
    exact
      ⟨hAgainCount, fun _ => ⟨hAgain.1, hAgain.2⟩,
        fun hBeyond => absurd hBeyond hLimit⟩

------------------------------------------------------------
-- Retried Stages
------------------------------------------------------------

/-
  What work on the stage of a retry comes to: a miss is counted,
  and nothing else is.
-/
def Retries
    (k : Retry)
    (turn : Turn) : Prop :=
  (turn.misses k = true ∧ turn.Counts k) ∨
    (turn.misses k = false ∧
      turn.after.retries = turn.before.retries)

/- Each tick in the stage of qualifying again is a miss. -/
theorem Works.retries_qualify
    (hWorks : turn.Works now rest)
    (hStage : turn.before.stage = .qualifyRetry) :
    turn.Retries .qualify := by
  have hAfter := hWorks.mayBecome
  rw [hStage] at hAfter
  left
  constructor
  · simp [Turn.misses, hStage, Retry.stage, hWorks.worked]
  · exact counts_of_after hAfter rfl ⟨rfl, rfl⟩ rfl ⟨rfl, rfl⟩

/- A start that is not published is a miss. -/
theorem Works.retries_publishStart
    (hWorks : turn.Works now rest)
    (hStage : turn.before.stage = .setupCloudConnected) :
    turn.Retries .publishStart := by
  have hMisses :
      turn.misses .publishStart =
        ! rest.any Exchange.isStartPublished := by
    simp [Turn.misses, hStage, Retry.stage, hWorks.worked,
      hWorks.talk, Exchange.isStartPublished]
  have hSame : (turn.before.entering now).stage = _ := hStage
  have hWork := hWorks.work
  unfold Updater.work at hWork
  rw [hSame] at hWork
  have hEnd := Updater.unfolds_setupCloudConnected hWork
  unfold Turn.Retries
  rw [hMisses]
  cases hPublished : rest.any Exchange.isStartPublished with
  | true =>
      rw [hPublished, if_pos rfl] at hEnd
      right
      rw [hEnd]
      exact ⟨rfl, rfl⟩
  | false =>
      rw [hPublished] at hEnd
      left
      refine ⟨rfl, ?_⟩
      exact
        counts_of_after hEnd rfl ⟨rfl, rfl⟩ rfl ⟨hStage, rfl⟩

/- A transfer that is not set up is a miss. -/
theorem Works.retries_httpsSetup
    (hWorks : turn.Works now rest)
    (hStage : turn.before.stage = .downloadHttpsSetup) :
    turn.Retries .httpsSetup := by
  have hMisses :
      turn.misses .httpsSetup =
        ! (Procedure.transferCommands turn.before.server).all
          (fun command =>
            rest.any (Exchange.accepts command)) := by
    simp [Turn.misses, hStage, Retry.stage, hWorks.worked,
      hWorks.talk, Exchange.accepts]
  have hSame : (turn.before.entering now).stage = _ := hStage
  have hWork := hWorks.work
  unfold Updater.work at hWork
  rw [hSame] at hWork
  have hEnd := Updater.unfolds_downloadHttpsSetup hWork
  unfold Turn.Retries
  rw [hMisses]
  cases hSetUp :
      (Procedure.transferCommands turn.before.server).all
        (fun command =>
          rest.any (Exchange.accepts command)) with
  | true =>
      have hEnd := hEnd.trans (if_pos hSetUp)
      right
      rw [hEnd]
      exact ⟨rfl, rfl⟩
  | false =>
      have hEnd := hEnd.trans (if_neg (by
        rw [Bool.not_eq_true]
        exact hSetUp))
      left
      refine ⟨rfl, ?_⟩
      exact
        counts_of_after hEnd rfl ⟨rfl, rfl⟩ rfl ⟨hStage, rfl⟩

/- A wait for the cloud that is too long is a miss. -/
theorem Works.retries_cloudConnectExit
    (hWorks : turn.Works now rest)
    (hStage : turn.before.stage = .finishedCloudConnecting) :
    turn.Retries .cloudConnectExit := by
  have hMisses :
      turn.misses .cloudConnectExit =
        (! rest.any Exchange.isCloudConnected &&
          decide
            ((turn.before.entering now).TimedOut now
              turn.before.policy.cloudConnectTimeout)) := by
    simp [Turn.misses, Turn.late, hStage, Retry.stage,
      hWorks.worked, hWorks.talk, Exchange.isCloudConnected]
  have hSame : (turn.before.entering now).stage = _ := hStage
  have hWork := hWorks.work
  unfold Updater.work at hWork
  rw [hSame] at hWork
  have hEnd := Updater.unfolds_finishedCloudConnecting hWork
  unfold Turn.Retries
  rw [hMisses]
  cases hConnected : rest.any Exchange.isCloudConnected with
  | true =>
      rw [hConnected, if_pos rfl] at hEnd
      right
      rw [hEnd]
      exact ⟨rfl, rfl⟩
  | false =>
      rw [hConnected] at hEnd
      by_cases hLate :
          (turn.before.entering now).TimedOut now
            turn.before.policy.cloudConnectTimeout
      · have hEnd := hEnd.trans (Updater.waits_late hLate)
        left
        refine ⟨by simp [hLate], ?_⟩
        exact
          counts_of_after hEnd rfl ⟨rfl, rfl⟩ rfl ⟨rfl, rfl⟩
      · have hEnd := hEnd.trans (Updater.waits_early hLate)
        right
        refine ⟨by simp [hLate], ?_⟩
        rw [hEnd]
        rfl

/- Work on the stage of a retry counts the misses. -/
theorem Works.retries
    {k : Retry}
    (hWorks : turn.Works now rest)
    (hStage : turn.before.stage = k.stage) :
    turn.Retries k := by
  cases k with
  | qualify => exact hWorks.retries_qualify hStage
  | publishStart => exact hWorks.retries_publishStart hStage
  | httpsSetup => exact hWorks.retries_httpsSetup hStage
  | cloudConnectExit =>
      exact hWorks.retries_cloudConnectExit hStage

/- Work on another stage leaves the count of a retry. -/
theorem Works.count_eq
    {k : Retry}
    (hWorks : turn.Works now rest)
    (hStage : turn.before.stage ≠ k.stage) :
    k.count turn.after.retries =
      k.count turn.before.retries := by
  have hKeeps := hWorks.keeps
  cases k with
  | qualify => exact hKeeps.qualify hStage
  | publishStart => exact hKeeps.publishStart hStage
  | httpsSetup => exact hKeeps.httpsSetup hStage
  | cloudConnectExit => exact hKeeps.cloudConnectExit hStage

end Turn

end Fota
