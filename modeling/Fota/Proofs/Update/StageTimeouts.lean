import Fota.Proofs.Update.AttemptLimits
import Fota.Proofs.Update.ForwardWalk
import Fota.Proofs.Update.RetryLimits

/-
  This file shows that the timeouts of the stages fire neither
  early nor late. The time of a stage runs from the first tick
  that has worked on it: a later one leaves the updater there
  only before the timeout, and takes the way of the timeout only
  after it. The same holds of a pending download, whose time
  runs from the tick that has sent the command.

  Key definitions include:
    * `Stage.timeout?`
    * `Stage.expiry?`
    * `Turn.TimesOut`
    * `Turn.lastDownload?`

  The main statement is `Life.timeouts_punctual`.
-/

namespace Fota

open Update (Exchange Policy Question Script Setting Talk)

------------------------------------------------------------
-- Timeouts
------------------------------------------------------------

namespace Stage

/- How long a policy lets an updater wait in a stage. -/
def timeout?
    (policy : Policy) : Stage → Option UInt32
| qualifyModemOn => some policy.powerOnTimeout
| setupCloudConnecting => some policy.cloudConnectTimeout
| downloadCloudDisconnect => some policy.cloudDisconnectTimeout
| downloadCellDisconnecting =>
    some policy.cellularDisconnectTimeout
| downloadCellConnecting => some policy.cellularConnectTimeout
| installCellDisconnecting =>
    some policy.cellularDisconnectTimeout
| installStarting => some policy.installStartTimeout
| installWaiting => some policy.installFinishTimeout
| finishedPoweringOff => some policy.powerOffTimeout
| finishedCloudConnecting => some policy.cloudConnectTimeout
| _ => none

/- The failure as which a wait that is too long ends the run. -/
def expiry? : Stage → Option Failure
| setupCloudConnecting => some .cloudConnectOnEntryTimeout
| downloadCellDisconnecting =>
    some .setupCellularDisconnectTimeout
| downloadCellConnecting => some .cellularConnectTimeout
| installCellDisconnecting =>
    some .installCellularDisconnectTimeout
| installStarting => some .startInstallTimeout
| installWaiting => some .installTimeout
| finishedPoweringOff => some .powerOffTimeout
| finishedCloudConnecting => some .cloudConnectOnExitTimeout
| _ => none

/- A stage with a timeout ends the run by it, but for two. -/
theorem exists_expiry
    {policy : Policy}
    {stage : Stage}
    {timeout : UInt32}
    (hTimeout : timeout ∈ stage.timeout? policy)
    (hModem : stage ≠ qualifyModemOn)
    (hSession : stage ≠ downloadCloudDisconnect) :
    ∃ cause, cause ∈ stage.expiry? := by
  cases stage <;> first
    | exact ⟨_, rfl⟩
    | exact absurd rfl hModem
    | exact absurd rfl hSession
    | cases hTimeout

end Stage

namespace Update.Exchange

/- The modem was found on. -/
def isModemOn : Exchange → Bool
| ⟨.networkPower, power⟩ => power = .on
| _ => false

/- Whether there was a session with the cloud, if it was asked. -/
def session? : Exchange → Option Bool
| ⟨.isCloudConnected, connected⟩ => some connected
| _ => none

end Update.Exchange

namespace Turn

/-
  In the turn, the updater takes the way on which the timeout of
  its stage leads: it ends the run, it qualifies again although
  the modem is not on, it takes the modem although there is a
  session still, or it switches the modem off once more.
-/
inductive TimesOut
    (turn : Turn) : Prop where
| fails
    {cause : Failure}
    (hCause : cause ∈ turn.before.stage.expiry?)
    (hStatus : turn.after.status = .failed cause)
    (hLands : turn.after.stage = cause.landing)
| qualifiesAgain
    (hStage : turn.before.stage = .qualifyModemOn)
    (hNext : turn.after.stage = .qualifyRetry)
    (hOff : turn.talk.any Exchange.isModemOn = false)
| takesModem
    (hStage : turn.before.stage = .downloadCloudDisconnect)
    (hNext : turn.after.stage = .downloadCellDisconnecting)
    (hSession :
      (turn.talk.filterMap Exchange.session?).getLast? =
        some true)
| switchesOff
    (hStage : turn.before.stage = .finishedCloudConnecting)
    (hNext : turn.after.stage = .finishedPowerOff)

/- The turn has sent a command to download. -/
def sendsDownload
    (turn : Turn) : Bool :=
  turn.talk.any Exchange.isDownload

/- The reading of the clock at the last download command. -/
def lastDownload?
    (turns : List Turn) : Option Instant :=
  (turns.filter sendsDownload).getLast?.bind workedAt?

end Turn

------------------------------------------------------------
-- Waits
------------------------------------------------------------

namespace Updater

variable
  {u next late early : Updater}
  {now : Instant}
  {entered : Bool}
  {timeout : UInt32}
  {expires : Prop}
  {talk : List Exchange}

/-
  Work on a stage obeys a timeout: it stays only before it, and
  takes the way of the timeout only after it.
-/
structure Obeys
    (now : Instant)
    (timeout : UInt32)
    (expires : Prop)
    (u next : Updater) : Prop where
  stays : next.stage = u.stage → ¬ u.TimedOut now timeout
  expires : expires → u.TimedOut now timeout

/- Work that goes on elsewhere has nothing to wait for. -/
theorem obeys_of_moved
    (hMoved : next.stage ≠ u.stage)
    (hOther : ¬ expires) :
    u.Obeys now timeout expires next :=
  ⟨fun hSame => absurd hSame hMoved,
    fun hExpires => absurd hExpires hOther⟩

/- Work that waits moves on exactly when it was too long. -/
theorem obeys_of_waits
    (hNext : next = u.waits now timeout late early)
    (hLate : late.stage ≠ u.stage)
    (hEarly : early.stage = u.stage)
    (hExpires : expires → next.stage ≠ u.stage) :
    u.Obeys now timeout expires next := by
  by_cases hTimedOut : u.TimedOut now timeout
  · rw [waits_late hTimedOut] at hNext
    rw [← hNext] at hLate
    exact
      ⟨fun hSame => absurd hSame hLate, fun _ => hTimedOut⟩
  · rw [waits_early hTimedOut] at hNext
    rw [← hNext] at hEarly
    exact
      ⟨fun _ => hTimedOut,
        fun hWay => absurd hEarly (hExpires hWay)⟩

/- A run that ends as a failure in its landing. -/
def Ends
    (cause : Failure)
    (next : Updater) : Prop :=
  next.status = .failed cause ∧ next.stage = cause.landing

/- Work that ends the run when it has waited for too long. -/
theorem obeys_of_waits_fail
    {cause : Failure}
    (hNext :
      next =
        u.waits now timeout (u.fail cause cause.landing) early)
    (hStage : cause.landing ≠ u.stage)
    (hEarly : early.stage = u.stage) :
    u.Obeys now timeout (next.Ends cause) next := by
  apply obeys_of_waits hNext hStage hEarly
  rintro ⟨_, hLands⟩
  rw [hLands]
  exact hStage

theorem obeys_fail_of_moved
    {cause : Failure}
    (hMoved : next.stage ≠ u.stage)
    (hOther : next.stage ≠ cause.landing) :
    u.Obeys now timeout (next.Ends cause) next :=
  obeys_of_moved hMoved (fun hEnds => hOther hEnds.2)

/-
  Work on a stage that may end the run by its timeout obeys it.
  The first tick of the two stages that wait for an install does
  not look at the time; and the last stage that waits for the
  cloud does not always end the run.
-/
theorem obeys_of_mayBecome
    {cause : Failure}
    (hNext : u.MayBecome now entered u.stage next)
    (hTimeout : timeout ∈ u.stage.timeout? u.policy)
    (hCause : cause ∈ u.stage.expiry?)
    (hLater :
      entered = true →
        u.stage ≠ .installStarting ∧ u.stage ≠ .installWaiting)
    (hOther : u.stage ≠ .finishedCloudConnecting) :
    u.Obeys now timeout (next.Ends cause) next := by
  cases hStage : u.stage <;>
    rw [hStage] at hNext hTimeout hCause hLater hOther <;>
    simp only [Stage.expiry?, Option.mem_def, reduceCtorEq]
      at hCause <;>
    cases hTimeout <;> cases hCause
  case finishedCloudConnecting =>
    exact absurd rfl hOther
  case installStarting =>
    cases entered with
    | true =>
        exact absurd rfl (hLater rfl).1
    | false =>
        rcases hNext with rfl | rfl
        · exact
            obeys_fail_of_moved (by simp [hStage])
              (by simp [Failure.landing])
        · exact
            obeys_of_waits_fail rfl
              (by simp [hStage, Failure.landing]) rfl
  case installWaiting =>
    cases entered with
    | true =>
        exact absurd rfl (hLater rfl).2
    | false =>
        rcases hNext with ⟨version, complete, rfl⟩
        unfold judged
        split
        · refine obeys_of_moved (by simp [hStage]) ?_
          rintro ⟨⟨⟩, _⟩
        · refine obeys_of_moved (by simp [hStage]) ?_
          rintro ⟨⟨⟩, _⟩
        · exact
            obeys_of_waits_fail rfl
              (by simp [hStage, Failure.landing]) rfl
  all_goals
    rcases hNext with rfl | rfl
    · exact
        obeys_fail_of_moved (by simp [hStage])
          (by simp [Failure.landing])
    · exact
        obeys_of_waits_fail rfl
          (by simp [hStage, Failure.landing]) rfl

/- The first tick that waits for an install ends no such run. -/
theorem not_ends_of_first
    {cause : Failure}
    (hNext : u.MayBecome now true u.stage next)
    (hStage : u.stage ∈ [Stage.installStarting, .installWaiting])
    (hCause : cause ∈ u.stage.expiry?) :
    ¬ next.Ends cause := by
  simp only [List.mem_cons, List.not_mem_nil, or_false]
    at hStage
  rcases hStage with hStage | hStage <;>
    rw [hStage] at hNext hCause <;> cases hCause
  · rcases hNext with ⟨version, rfl | rfl⟩
    · rintro ⟨⟨⟩, _⟩
    · rintro ⟨_, hLands⟩
      exact absurd (hStage.symm.trans hLands) (by decide)
  · cases hNext
    rintro ⟨_, hLands⟩
    exact absurd (hStage.symm.trans hLands) (by decide)

/- Waiting for the cloud at the end obeys its timeout. -/
theorem obeys_finishedCloudConnecting
    (hNext : u.MayBecome now entered u.stage next)
    (hStage : u.stage = .finishedCloudConnecting) :
    u.Obeys now u.policy.cloudConnectTimeout
      (next.stage ∈ [Stage.finishedPowerOff, .finishedIdle])
      next := by
  rw [hStage] at hNext
  rcases hNext with rfl | rfl
  · exact obeys_of_moved (by simp [hStage]) (by simp)
  · have hDelayed :
        u.exitDelayed.stage ∈
          [Stage.finishedPowerOff, .finishedIdle] := by
      dsimp only [exitDelayed]
      split <;> simp
    apply obeys_of_waits rfl _ rfl
    · intro hAhead
      rw [hStage]
      intro hSame
      rw [hSame] at hAhead
      simp at hAhead
    · rw [hStage]
      intro hSame
      rw [hSame] at hDelayed
      simp at hDelayed

/- Reading an offer leaves the wait for the modem. -/
theorem qualifyVersion_leaves
    (version : UInt32) :
    (u.qualifyVersion version).Yields
      (fun next => next.stage ≠ .qualifyModemOn) := by
  rw [qualifyVersion_eq]
  cases hOffered : u.offered? version with
  | none =>
      simp [refused]
  | some offer =>
      have hOffer := stage_offered hOffered
      simp [persist, hOffer]

/- Waiting for the modem obeys its timeout. -/
theorem obeys_qualifyModemOn
    (hUnfolds :
      (u.qualifyModemOn now).Unfolds talk (some next))
    (hStage : u.stage = .qualifyModemOn) :
    u.Obeys now u.policy.powerOnTimeout
      (next.stage = .qualifyRetry ∧
        talk.any Exchange.isModemOn = false)
      next := by
  unfold qualifyModemOn at hUnfolds
  simp only [Talk.networkPower, Dialogue.ask_bind,
    Dialogue.done_bind, Dialogue.unfolds_ask] at hUnfolds
  rcases hUnfolds with ⟨power, rest, rfl, hRest⟩
  by_cases hOn : power = .on
  · rw [if_pos hOn] at hRest
    apply obeys_of_moved
    · have hLeaves :
          (Talk.carryOut Procedure.readVersion >>= fun version =>
            if version = 0 then
              pure (u.moveTo .qualifyRetry)
            else
              u.qualifyVersion version).Yields
                (fun next => next.stage ≠ .qualifyModemOn) := by
        rw [Dialogue.yields_bind]
        apply Dialogue.Yields.of_forall
        intro version
        rw [Dialogue.yields_ite]
        refine ⟨fun _ => ?_, fun _ => qualifyVersion_leaves _⟩
        simp
      rw [hStage]
      exact hRest.yields hLeaves
    · rintro ⟨_, hOff⟩
      simp [Exchange.isModemOn, hOn] at hOff
  · rw [if_neg hOn] at hRest
    have hNext :
        next =
          u.waits now u.policy.powerOnTimeout
            (u.moveTo .qualifyRetry) u := by
      rw [Dialogue.pure_eq_done, Dialogue.pure_eq_done,
        ← apply_ite Dialogue.done, Dialogue.unfolds_done]
        at hRest
      exact hRest.2
    apply obeys_of_waits hNext (by simp [hStage]) rfl
    rintro ⟨hRetry, _⟩
    rw [hRetry, hStage]
    decide

theorem downloadCloudDisconnect_eq :
    u.downloadCloudDisconnect now entered =
      (if entered then
        Talk.isCloudConnected >>= fun connected =>
          if connected then Talk.disconnectCloud else .done ()
      else
        .done ()) >>= fun _ =>
        Talk.isCloudConnected >>= fun connected =>
          if connected then
            if u.TimedOut now u.policy.cloudDisconnectTimeout
            then
              u.takeModem now
            else
              .done u
          else
            u.takeModem now := by
  unfold downloadCloudDisconnect
  cases entered with
  | false =>
      rfl
  | true =>
      simp
      funext connected
      cases connected <;> rfl

/- Taking the modem does not look at the session. -/
theorem unfolds_takeModem
    (hUnfolds : (u.takeModem now).Unfolds talk (some next)) :
    talk.filterMap Exchange.session? = [] ∧
      next = u.owning now := by
  unfold takeModem at hUnfolds
  simp only [Talk.setUpdateMode, Talk.networkDisconnect,
    Dialogue.pure_eq_done, Dialogue.ask_bind,
    Dialogue.done_bind, Dialogue.unfolds_ask,
    Dialogue.unfolds_done] at hUnfolds
  rcases hUnfolds with ⟨_, _, rfl, _, _, rfl, rfl, rfl⟩
  exact ⟨rfl, rfl⟩

/-
  The last look at the session tells whether the modem is taken
  at once.
-/
theorem unfolds_downloadCloudDisconnect
    (hUnfolds :
      (u.downloadCloudDisconnect now entered).Unfolds talk
        (some next)) :
    ∃ connected,
      (talk.filterMap Exchange.session?).getLast? =
          some connected ∧
        next =
          if connected then
            u.waits now u.policy.cloudDisconnectTimeout
              (u.owning now) u
          else
            u.owning now := by
  rw [downloadCloudDisconnect_eq, Dialogue.unfolds_bind]
    at hUnfolds
  simp only [Talk.isCloudConnected, Dialogue.ask_bind,
    Dialogue.done_bind, Dialogue.unfolds_ask] at hUnfolds
  rcases hUnfolds with
    ⟨_, first, _, rfl, hFirst, connected, rest, rfl, hRest⟩
  have hEnd :
      rest.filterMap Exchange.session? = [] ∧
        next =
          if connected then
            u.waits now u.policy.cloudDisconnectTimeout
              (u.owning now) u
          else
            u.owning now := by
    cases connected with
    | false =>
        exact unfolds_takeModem hRest
    | true =>
        rw [if_pos rfl] at hRest ⊢
        by_cases hLate :
            u.TimedOut now u.policy.cloudDisconnectTimeout
        · rw [if_pos hLate] at hRest
          rw [waits_late hLate]
          exact unfolds_takeModem hRest
        · rw [if_neg hLate, Dialogue.unfolds_done] at hRest
          rw [waits_early hLate, hRest.1]
          exact ⟨rfl, hRest.2⟩
  refine ⟨connected, ?_, hEnd.2⟩
  rw [List.filterMap_append, List.filterMap_cons, hEnd.1]
  exact List.getLast?_concat

/- Waiting for the session to end obeys its timeout. -/
theorem obeys_downloadCloudDisconnect
    (hUnfolds :
      (u.downloadCloudDisconnect now entered).Unfolds talk
        (some next))
    (hStage : u.stage = .downloadCloudDisconnect) :
    u.Obeys now u.policy.cloudDisconnectTimeout
      (next.stage = .downloadCellDisconnecting ∧
        (talk.filterMap Exchange.session?).getLast? = some true)
      next := by
  rcases unfolds_downloadCloudDisconnect hUnfolds with
    ⟨connected, hSession, hNext⟩
  rw [hSession]
  have hOwning : (u.owning now).stage ≠ u.stage := by
    simp [owning, hStage]
  cases connected with
  | false =>
      rw [hNext]
      exact obeys_of_moved hOwning (by simp)
  | true =>
      apply obeys_of_waits hNext hOwning rfl
      rintro ⟨hTaken, _⟩
      rw [hTaken, hStage]
      decide

end Updater

------------------------------------------------------------
-- Turns
------------------------------------------------------------

namespace Turn

variable
  {turn : Turn}
  {turns : List Turn}
  {now since : Instant}
  {rest : List Exchange}
  {timeout : UInt32}

/- In a stage that may end the run, only that is its timeout. -/
theorem TimesOut.ends
    {cause : Failure}
    (hTimesOut : turn.TimesOut)
    (hCause : cause ∈ turn.before.stage.expiry?)
    (hOther : turn.before.stage ≠ .finishedCloudConnecting) :
    turn.after.Ends cause := by
  cases hTimesOut with
  | fails hSame hStatus hLands =>
      cases hSame.symm.trans hCause
      exact ⟨hStatus, hLands⟩
  | qualifiesAgain hStage =>
      rw [hStage] at hCause
      cases hCause
  | takesModem hStage =>
      rw [hStage] at hCause
      cases hCause
  | switchesOff hStage =>
      exact absurd hStage hOther

/- In each of the other stages there is one way for it. -/
theorem TimesOut.qualifies
    (hTimesOut : turn.TimesOut)
    (hModem : turn.before.stage = .qualifyModemOn) :
    turn.after.stage = .qualifyRetry ∧
      turn.talk.any Exchange.isModemOn = false := by
  cases hTimesOut with
  | fails hCause =>
      rw [hModem] at hCause
      cases hCause
  | qualifiesAgain _ hRetry hOff =>
      exact ⟨hRetry, hOff⟩
  | takesModem hStage =>
      cases hModem.symm.trans hStage
  | switchesOff hStage =>
      cases hModem.symm.trans hStage

theorem TimesOut.takes
    (hTimesOut : turn.TimesOut)
    (hSession : turn.before.stage = .downloadCloudDisconnect) :
    turn.after.stage = .downloadCellDisconnecting ∧
      (turn.talk.filterMap Exchange.session?).getLast? =
        some true := by
  cases hTimesOut with
  | fails hCause =>
      rw [hSession] at hCause
      cases hCause
  | qualifiesAgain hStage =>
      cases hSession.symm.trans hStage
  | takesModem _ hTaken hConnected =>
      exact ⟨hTaken, hConnected⟩
  | switchesOff hStage =>
      cases hSession.symm.trans hStage

theorem TimesOut.leaves
    (hTimesOut : turn.TimesOut)
    (hExit : turn.before.stage = .finishedCloudConnecting) :
    turn.after.stage ∈
      [Stage.finishedPowerOff, .finishedIdle] := by
  cases hTimesOut with
  | fails hCause _ hLands =>
      rw [hExit] at hCause
      cases hCause
      rw [hLands]
      decide
  | qualifiesAgain hStage =>
      cases hExit.symm.trans hStage
  | takesModem hStage =>
      cases hExit.symm.trans hStage
  | switchesOff _ hOff =>
      rw [hOff]
      decide

/- What work obeys, the turn does. -/
theorem obeys_of_work
    {expires : Prop}
    (hObeys :
      (turn.before.entering now).Obeys now timeout expires
        turn.after)
    (hWay : turn.TimesOut → expires) :
    (turn.after.stage = turn.before.stage →
      ¬ (turn.before.entering now).TimedOut now timeout ∨
        turn.before.time.enteredAt = none) ∧
      (turn.TimesOut →
        (turn.before.entering now).TimedOut now timeout) :=
  ⟨fun hSame => .inl (hObeys.stays hSame),
    fun hTimesOut => hObeys.expires (hWay hTimesOut)⟩

/-
  Work on a stage with a timeout obeys it, whatever the stage.
  The first tick in a stage may stay there in any case.
-/
theorem Works.obeys
    (hWorks : turn.Works now rest)
    (hTimeout :
      timeout ∈ turn.before.stage.timeout? turn.before.policy) :
    (turn.after.stage = turn.before.stage →
      ¬ (turn.before.entering now).TimedOut now timeout ∨
        turn.before.time.enteredAt = none) ∧
      (turn.TimesOut →
        (turn.before.entering now).TimedOut now timeout) := by
  have hWork := hWorks.work
  have hNext := hWorks.mayBecome
  unfold Updater.work at hWork
  by_cases hModem : turn.before.stage = .qualifyModemOn
  · have hSame : (turn.before.entering now).stage = _ := hModem
    rw [hSame] at hWork
    rw [hModem] at hTimeout
    cases hTimeout
    apply obeys_of_work
      (Updater.obeys_qualifyModemOn hWork hSame)
    intro hTimesOut
    have hWay := hTimesOut.qualifies hModem
    rw [hWorks.talk] at hWay
    exact hWay
  by_cases hSession : turn.before.stage = .downloadCloudDisconnect
  · have hSame : (turn.before.entering now).stage = _ :=
      hSession
    rw [hSame] at hWork
    rw [hSession] at hTimeout
    cases hTimeout
    apply obeys_of_work
      (Updater.obeys_downloadCloudDisconnect hWork hSame)
    intro hTimesOut
    have hWay := hTimesOut.takes hSession
    rw [hWorks.talk] at hWay
    exact hWay
  by_cases hExit :
      turn.before.stage = .finishedCloudConnecting
  · rw [hExit] at hTimeout
    cases hTimeout
    apply obeys_of_work
      (Updater.obeys_finishedCloudConnecting hNext hExit)
    intro hTimesOut
    exact hTimesOut.leaves hExit
  rcases Stage.exists_expiry hTimeout hModem hSession with
    ⟨cause, hCause⟩
  by_cases hFirst :
      turn.before.time.enteredAt.isNone = true ∧
        turn.before.stage ∈
          [Stage.installStarting, .installWaiting]
  · have hFirstNext :
        (turn.before.entering now).MayBecome now true
          (turn.before.entering now).stage turn.after := by
      rw [← hFirst.1]
      exact hNext
    refine
      ⟨fun _ => .inr (Option.isNone_iff_eq_none.mp hFirst.1),
        ?_⟩
    intro hTimesOut
    exact
      absurd (hTimesOut.ends hCause hExit)
        (Updater.not_ends_of_first hFirstNext hFirst.2 hCause)
  · have hLater :
        turn.before.time.enteredAt.isNone = true →
          turn.before.stage ≠ .installStarting ∧
            turn.before.stage ≠ .installWaiting := by
      intro hNone
      simpa [hNone] using hFirst
    apply obeys_of_work
      (Updater.obeys_of_mayBecome hNext hTimeout hCause hLater
        hExit)
    intro hTimesOut
    exact hTimesOut.ends hCause hExit

------------------------------------------------------------
-- Downloads
------------------------------------------------------------

theorem lastDownload?_of_sends
    (turns : List Turn)
    (hSends : turn.sendsDownload = true) :
    lastDownload? (turns ++ [turn]) = turn.workedAt? := by
  simp [lastDownload?, hSends]

theorem lastDownload?_of_none
    (turns : List Turn)
    (hNone : turn.sendsDownload = false) :
    lastDownload? (turns ++ [turn]) = lastDownload? turns := by
  simp [lastDownload?, hNone]

/- What a turn adds tells whether it has sent a download. -/
theorem Adds.sendsDownload_eq
    {attempts failures : Nat}
    (hAdds : turn.Adds attempts failures) :
    turn.sendsDownload = decide (0 < attempts) := by
  rw [← hAdds.downloads, Bool.eq_iff_iff]
  simp [sendsDownload, List.countP_pos_iff]

/- A completion is seen in the talk about attempts. -/
theorem any_isCompletion
    {talk part : List Exchange}
    (hPart : talk.filter Exchange.isAttempt = part) :
    talk.any Exchange.isCompletion =
      part.any Exchange.isCompletion := by
  rw [← hPart, List.any_filter]
  congr 1
  funext exchange
  rcases exchange with ⟨question, answer⟩
  cases question <;>
    simp [Exchange.isCompletion, Exchange.isAttempt,
      Question.isAttempt]

theorem pendingSince_attemptLost
    (u : Updater) :
    u.attemptLost.time.pendingSince = none := by
  dsimp only [Updater.attemptLost]
  split <;> rfl

/- Work on a pending download keeps it until it is over. -/
theorem Works.pending_iff
    (hWorks : turn.Works now rest)
    (hStage : turn.before.stage = .downloadReady)
    (hPending : turn.before.time.pendingSince = some since) :
    turn.after.time.pendingSince = some since ↔
      turn.talk.any Exchange.isCompletion = false ∧
        ¬ since.Elapsed turn.before.policy.downloadTimeout
          now := by
  have hReady :
      (turn.before.entering now).time.pendingSince =
        some since :=
    hPending
  rcases Updater.unfolds_downloadReady hReady
      (hWorks.downloads hStage) with
    ⟨completion, hAccepted | hLost | hWaits⟩
  · rcases hAccepted with ⟨done, hDone, _, hTalk, hAfter⟩
    rw [any_isCompletion (hWorks.filter.trans hTalk), hAfter,
      Option.mem_def.mp hDone]
    simp [Updater.moveTo, StageTime.fresh, Exchange.isCompletion]
  · rcases hLost with ⟨_, hLate, hTalk, hAfter⟩
    rw [any_isCompletion (hWorks.filter.trans hTalk), hAfter,
      pendingSince_attemptLost]
    cases completion with
    | none =>
        refine iff_of_false (by simp) ?_
        rintro ⟨_, hEarly⟩
        exact hEarly (hLate rfl)
    | some done =>
        simp [Exchange.isCompletion]
  · rcases hWaits with ⟨rfl, hEarly, hTalk, hAfter⟩
    rw [any_isCompletion (hWorks.filter.trans hTalk), hAfter,
      hReady]
    simp [Exchange.isCompletion]
    exact hEarly

end Turn

namespace Life

variable
  {s : Setting}
  {turns : List Turn}
  {l l' : Life}

/- A download is pending since the last command was sent. -/
theorem Run.lastDownload?_eq
    (hRun : l.Run s turns) :
    ∀ u ∈ l.updater, u.stage = .downloadReady →
      ∀ since ∈ u.time.pendingSince,
        Turn.lastDownload? turns = some since := by
  refine
    hRun.follows
      (fun turns u => u.stage = .downloadReady →
        ∀ since ∈ u.time.pendingSince,
          Turn.lastDownload? turns = some since)
      ?_ ?_ ?_
  · intro u hRenewed _ since hPending
    rw [hRenewed.time] at hPending
    cases hPending
  · intro turns turn hRests hAlike ih hStage since hPending
    rw [hAlike.stage] at hStage
    rw [hAlike.time] at hPending
    rw [Turn.lastDownload?_of_none turns
      hRests.apart.adds.sendsDownload_eq]
    exact ih hStage since hPending
  · intro turns turn now rest hWorks ih hStage since hPending
    by_cases hReady : turn.before.stage = .downloadReady
    · let a : Attempts :=
        { Attempts.untried with
          pending := turn.before.time.pendingSince }
      obtain ⟨a', hTries⟩ : ∃ a', turn.Tries now a a' :=
        ⟨_, hWorks.tries hReady rfl⟩
      cases hTries with
      | begins _ hAdds hAfter =>
          rw [Turn.lastDownload?_of_sends turns
            hAdds.sendsDownload_eq, hWorks.worked]
          rw [hAfter] at hPending
          exact hPending
      | fails _ hAfter =>
          rw [hAfter, Turn.pendingSince_attemptLost]
            at hPending
          cases hPending
      | accepts _ _ hAfter =>
          rw [hAfter] at hStage
          cases hStage
      | waits _ hAdds hAfter =>
          rw [Turn.lastDownload?_of_none turns
            hAdds.sendsDownload_eq]
          rw [hAfter] at hPending
          exact ih hReady since hPending
    · -- The download was entered, and nothing is pending yet.
      rcases hWorks.edge with
        ⟨hSame, _⟩ | ⟨_, hFresh⟩ | ⟨_, hTaken⟩
      · exact absurd (hSame.symm.trans hStage) hReady
      · rw [hFresh] at hPending
        cases hPending
      · cases hStage.symm.trans hTaken

/-
  The timeouts of the stages fire neither early nor late. In a
  stage with a timeout, a tick that is not the first one stays
  only if the timeout has not passed since the first one, and
  takes the way of the timeout only if it has. A download is
  pending since its command was sent, and stays so in a tick
  exactly if that takes no completion and its timeout has not
  passed.
-/
theorem timeouts_punctual
    {turn : Turn}
    {now : Instant}
    (hRun : l.Run s turns)
    (hTakes : turn.Takes s l l')
    (hNow : now ∈ turn.workedAt?) :
    (∀ timeout ∈
        turn.before.stage.timeout? turn.before.policy,
      let first := (Turn.firstWork? turns).getD now
      (turn.after.stage = turn.before.stage →
        ¬ first.Elapsed timeout now ∨
          Turn.firstWork? turns = none) ∧
        (turn.TimesOut → first.Elapsed timeout now)) ∧
      (turn.before.stage = .downloadReady →
        ∀ since ∈ turn.before.time.pendingSince,
          Turn.lastDownload? turns = some since ∧
            (turn.after.time.pendingSince = some since ↔
              turn.talk.any Exchange.isCompletion = false ∧
                ¬ since.Elapsed
                  turn.before.policy.downloadTimeout now)) := by
  have hWorks : ∃ rest, turn.Works now rest := by
    rcases Turn.works_or_rests hTakes.unfolds with
      ⟨now', rest, hWorks⟩ | hRests
    · cases hWorks.worked.symm.trans hNow
      exact ⟨rest, hWorks⟩
    · cases hRests.idle.symm.trans hNow
  rcases hWorks with ⟨rest, hWorks⟩
  refine ⟨?_, ?_⟩
  · intro timeout hTimeout first
    have hTimed : turn.before.stage ≠ .setupCloudConnect := by
      intro hConnect
      rw [hConnect] at hTimeout
      cases hTimeout
    have hEntered :
        turn.before.time.enteredAt = Turn.firstWork? turns :=
      hRun.enteredAt _ hTakes.before hTimed
    have hLate :
        (turn.before.entering now).TimedOut now timeout ↔
          first.Elapsed timeout now := by
      have hIff : turn.late timeout = true ↔ _ :=
        hRun.late_iff hTakes hTimed
      rw [Turn.late, hNow] at hIff
      simpa using hIff
    rw [← hLate, ← hEntered]
    exact hWorks.obeys hTimeout
  · intro hStage since hPending
    exact
      ⟨hRun.lastDownload?_eq _ hTakes.before hStage since
          hPending,
        hWorks.pending_iff hStage hPending⟩

end Life

------------------------------------------------------------
-- A Session that Does Not Come
------------------------------------------------------------

/-
  The smooth script, but for a session that does not come, and
  with some milliseconds between any two questions.
-/
def Update.Script.unlinked
    (ms : Nat) : Script where
  notices := Script.smooth.notices
  answer c
  | .isCloudConnected => false
  | .now => .ofNat (ms * c.past.length)
  | question => Script.smooth.answer c question

/- A run that waits for a session, with quick ticks so far. -/
def Replay.unlinked
    (count : Nat) : Replay :=
  (start (.unlinked 10) .standard true (Life.qualified 2)).ticks
    (.unlinked 10) count

/-
  A quick tick stays in the wait for a session, whose time has
  not passed; a slow one ends the run, as it has.
-/
theorem Life.timeouts_punctual_without_session :
    (∃ turn ∈ (Replay.unlinked 2).turn? (.unlinked 10) .tick,
      turn.after.stage = .setupCloudConnecting ∧
        ∃ now ∈ turn.workedAt?,
          ∃ first ∈ Turn.firstWork? (Replay.unlinked 2).turns,
            ¬ first.Elapsed
              turn.before.policy.cloudConnectTimeout now) ∧
      ∃ turn ∈ (Replay.unlinked 3).turn? (.unlinked 1000000)
          .tick,
        turn.after.status =
            .failed .cloudConnectOnEntryTimeout ∧
          ∃ now ∈ turn.workedAt?,
            ∃ first ∈ Turn.firstWork? (Replay.unlinked 3).turns,
              first.Elapsed
                turn.before.policy.cloudConnectTimeout now := by
  have hMoments :
      (∃ turn ∈ (Replay.unlinked 2).turn? (.unlinked 10) .tick,
        turn.before.stage = .setupCloudConnecting ∧
          turn.after.stage = .setupCloudConnecting ∧
          turn.workedAt?.isSome = true ∧
          (Turn.firstWork? (Replay.unlinked 2).turns).isSome =
            true) ∧
        ∃ turn ∈ (Replay.unlinked 3).turn? (.unlinked 1000000)
            .tick,
          turn.before.stage = .setupCloudConnecting ∧
            turn.after.stage = .finishedIdle ∧
            turn.after.status =
              .failed .cloudConnectOnEntryTimeout ∧
            turn.workedAt?.isSome = true ∧
            (Turn.firstWork? (Replay.unlinked 3).turns).isSome =
              true := by
    decide +kernel
  have hRun :
      ∀ count, (Replay.unlinked count).Sound := by
    intro count
    exact (Replay.sound_start _ _ _).ticks count
  rcases hMoments with ⟨hQuick, hSlow⟩
  constructor
  · rcases hQuick with
      ⟨turn, hTurn, hBefore, hAfter, hWorked, hFirst⟩
    rcases Option.isSome_iff_exists.mp hWorked with ⟨now, hNow⟩
    rcases Option.isSome_iff_exists.mp hFirst with
      ⟨first, hFirst⟩
    have hTimeout :
        turn.before.policy.cloudConnectTimeout ∈
          turn.before.stage.timeout? turn.before.policy := by
      rw [hBefore]
      rfl
    have hStays :=
      ((timeouts_punctual (hRun 2) (Replay.takes_next hTurn)
        hNow).1 _ hTimeout).1 (hAfter.trans hBefore.symm)
    rw [hFirst] at hStays
    refine ⟨turn, hTurn, hAfter, now, hNow, first, hFirst, ?_⟩
    simpa using hStays
  · rcases hSlow with
      ⟨turn, hTurn, hBefore, hAfter, hFailed, hWorked, hFirst⟩
    rcases Option.isSome_iff_exists.mp hWorked with ⟨now, hNow⟩
    rcases Option.isSome_iff_exists.mp hFirst with
      ⟨first, hFirst⟩
    have hTimeout :
        turn.before.policy.cloudConnectTimeout ∈
          turn.before.stage.timeout? turn.before.policy := by
      rw [hBefore]
      rfl
    have hTimesOut : turn.TimesOut := by
      apply Turn.TimesOut.fails _ hFailed hAfter
      rw [hBefore]
      rfl
    have hLate :=
      ((timeouts_punctual (hRun 3) (Replay.takes_next hTurn)
        hNow).1 _ hTimeout).2 hTimesOut
    rw [hFirst] at hLate
    exact
      ⟨turn, hTurn, hFailed, now, hNow, first, hFirst, hLate⟩

end Fota
