import Fota.Proofs.Update.Cooldowns

/-
  This file shows how often a run tries to download: it gives up
  in the turn in which the last attempt fails that the policy
  allows, and not before. What telemetry has counted since the
  run began is what an onlooker knows of the attempts.

  Key definitions include:
    * `Update.Policy.attempts`
    * `Attempts.Counted`
    * `Attempts.Tracked`
    * `Turn.FailsAttempt`

  The main statements are `Life.Run.tracked` and
  `Life.attempts_limited`.
-/

namespace Fota

open Update (Exchange Policy Question Script Setting Talk)

------------------------------------------------------------
-- Allowed Attempts
------------------------------------------------------------

/- How many attempts are allowed; there is always one. -/
def Update.Policy.attempts
    (policy : Policy) : Nat :=
  max 1 policy.downloadAttemptsMax.toNat

theorem Update.Policy.one_le_attempts
    (policy : Policy) :
    1 ≤ policy.attempts :=
  Nat.le_max_left _ _

theorem Update.Policy.attempts_le
    (policy : Policy) :
    policy.attempts ≤ 255 := by
  have hBound := policy.downloadAttemptsMax.toNat_lt
  unfold attempts
  omega

------------------------------------------------------------
-- Stages before the Download
------------------------------------------------------------

/- The stages that a run passes before the download. -/
def Stage.beforeDownload : List Stage :=
  [.qualifyFlags, .qualifyModemOn, .qualifyRetry,
    .setupCloudConnect, .setupCloudConnecting,
    .setupCloudConnected, .downloadCloudDisconnect,
    .downloadCellDisconnecting, .downloadCellConnecting,
    .downloadHttpsSetup]

/- No stage leads back to those before the download. -/
theorem Stage.beforeDownload_of_successors
    {stage next : Stage}
    (hNext : next ∈ stage.successors)
    (hBefore : next = .downloadReady ∨
      next ∈ beforeDownload) :
    stage ∈ beforeDownload := by
  cases stage <;> simp at hNext <;>
    simp [beforeDownload] at hBefore ⊢ <;>
    rcases hNext with rfl | rfl | rfl <;>
    simp at hBefore

/- No work pauses before the download. -/
theorem Stage.pause_downloadReady
    (policy : Policy)
    (stage : Stage) :
    pause policy stage .downloadReady = 0 := by
  cases stage <;> rfl

namespace Updater

variable {u next : Updater}

theorem Edge.beforeDownload
    (hEdge : u.Edge next)
    (hNext : next.stage ∈ Stage.beforeDownload) :
    u.stage ∈ Stage.beforeDownload := by
  rcases hEdge with ⟨hSame, _⟩ | ⟨hMem, _⟩ | ⟨hModem, _⟩
  · rw [← hSame]
    exact hNext
  · exact
      Stage.beforeDownload_of_successors hMem (Or.inr hNext)
  · rw [hModem]
    simp [Stage.beforeDownload]

/- The download begins anew when its stage is entered. -/
theorem Edge.enters_download
    (hEdge : u.Edge next)
    (hStage : u.stage ≠ .downloadReady)
    (hNext : next.stage = .downloadReady) :
    u.stage ∈ Stage.beforeDownload ∧ next.time = .fresh := by
  rcases hEdge with ⟨hSame, _⟩ | ⟨hMem, hFresh⟩ | ⟨_, hTaken⟩
  · rw [hSame] at hNext
    exact absurd hNext hStage
  · exact
      ⟨Stage.beforeDownload_of_successors hMem
        (Or.inl hNext), hFresh⟩
  · rw [hNext] at hTaken
    cases hTaken

end Updater

------------------------------------------------------------
-- Tracked Attempts
------------------------------------------------------------

namespace Attempts

/-
  What was sent and counted is what an onlooker knows: each
  attempt that has failed, is pending or was accepted.
-/
structure Counted
    (talk : List Exchange)
    (a : Attempts) : Prop where
  downloads :
    talk.countP Exchange.isDownload = a.failed + a.standing
  attempts :
    talk.countP (Exchange.counts .downloadAttempt) =
      a.failed + a.standing
  failures :
    talk.countP (Exchange.counts .downloadFailure) = a.failed

/-
  The updater keeps track of what an onlooker knows. An attempt
  is only pending while the run is on the download, and there
  are no more attempts than are allowed.
-/
structure Tracked
    (u : Updater)
    (a : Attempts) : Prop where
  count : u.retries.download.toNat = a.failed
  within : a.failed + a.standing ≤ u.policy.attempts
  before : u.stage ∈ Stage.beforeDownload → a = untried
  apart : u.stage ≠ .downloadReady → a.pending = none
  pending :
    u.stage = .downloadReady →
      u.time.pendingSince = a.pending
  fresh : u.stage = .downloadReady → a.accepted = false
  left :
    u.stage = .downloadReady → a.failed < u.policy.attempts

variable
  {a a' : Attempts}
  {talk : List Exchange}
  {turn : Turn}
  {u : Updater}
  {now : Instant}
  {rest : List Exchange}

theorem standing_le_one
    (a : Attempts) :
    a.standing ≤ 1 := by
  unfold standing
  split
  · exact Nat.le_refl 1
  · exact Nat.zero_le 1

theorem counted_nil :
    untried.Counted [] :=
  ⟨rfl, rfl, rfl⟩

theorem tracked_renewed
    (hRenewed : u.Renewed) :
    untried.Tracked u := by
  have hOne := u.policy.one_le_attempts
  constructor
  · rw [hRenewed.retries]
    rfl
  · exact Nat.zero_le _
  · exact fun _ => rfl
  · exact fun _ => rfl
  · intro _
    rw [hRenewed.time]
    rfl
  · exact fun _ => rfl
  · exact fun _ => hOne

/- What a turn adds is counted along with what was there. -/
theorem Counted.adds
    {attempts failures : Nat}
    (hCounted : a.Counted talk)
    (hAdds : turn.Adds attempts failures)
    (hAttempts :
      a.failed + a.standing + attempts =
        a'.failed + a'.standing)
    (hFailures : a.failed + failures = a'.failed) :
    a'.Counted (talk ++ turn.talk) := by
  constructor <;> rw [List.countP_append]
  · rw [hCounted.downloads, hAdds.downloads, hAttempts]
  · rw [hCounted.attempts, hAdds.attempts, hAttempts]
  · rw [hCounted.failures, hAdds.failures, hFailures]

theorem Counted.apart
    (hCounted : a.Counted talk)
    (hApart : turn.Apart) :
    a.Counted (talk ++ turn.talk) :=
  hCounted.adds hApart.adds rfl rfl

/- A turn without work leaves the attempts as they are. -/
theorem Tracked.rests
    (hTracked : a.Tracked turn.before)
    (hAlike : turn.before.Alike turn.after) :
    a.Tracked turn.after := by
  rcases hAlike with
    ⟨hPolicy, _, hRetries, hTime, hStage, _⟩
  constructor
  · rw [hRetries]
    exact hTracked.count
  · rw [hPolicy]
    exact hTracked.within
  · rw [hStage]
    exact hTracked.before
  · rw [hStage]
    exact hTracked.apart
  · rw [hStage, hTime]
    exact hTracked.pending
  · rw [hStage]
    exact hTracked.fresh
  · rw [hStage, hPolicy]
    exact hTracked.left

/- So does work on another stage. -/
theorem Tracked.elsewhere
    (hTracked : a.Tracked turn.before)
    (hWorks : turn.Works now rest)
    (hStage : turn.before.stage ≠ .downloadReady) :
    a.Tracked turn.after := by
  have hKeeps := hWorks.keeps
  -- The download is entered from before it, with nothing tried.
  have hEnters :
      turn.after.stage = .downloadReady →
        a = untried ∧ turn.after.time = .fresh := by
    intro hNext
    have hFresh := hWorks.edge.enters_download hStage hNext
    exact ⟨hTracked.before hFresh.1, hFresh.2⟩
  constructor
  · rw [hKeeps.download hStage]
    exact hTracked.count
  · rw [hKeeps.policy]
    exact hTracked.within
  · intro hNext
    exact hTracked.before (hWorks.edge.beforeDownload hNext)
  · intro _
    exact hTracked.apart hStage
  · intro hNext
    rw [(hEnters hNext).1, (hEnters hNext).2]
    rfl
  · intro hNext
    rw [(hEnters hNext).1]
    rfl
  · intro hNext
    rw [(hEnters hNext).1]
    exact Policy.one_le_attempts _

/- Each way in which an attempt goes on is counted. -/
theorem Counted.tries
    (hCounted : a.Counted talk)
    (hFresh : a.accepted = false)
    (hTries : turn.Tries now a a') :
    a'.Counted (talk ++ turn.talk) := by
  cases hTries with
  | begins hNone hAdds hAfter =>
      apply hCounted.adds hAdds
      · simp [standing, hNone, hFresh]
      · rfl
  | fails hAdds hAfter =>
      -- An attempt that fails was pending, or has just begun.
      apply hCounted.adds hAdds
      · cases hPending : a.pending <;>
          simp [standing, lose, hPending, hFresh]
      · rfl
  | accepts hSome hAdds hAfter =>
      apply hCounted.adds hAdds
      · simp [standing, hSome]
      · rfl
  | waits hSome hAdds hAfter =>
      exact hCounted.adds hAdds rfl rfl

end Attempts

------------------------------------------------------------
-- Lost Attempts
------------------------------------------------------------

namespace Updater

variable {u : Updater}

/- While an attempt is left, the count has room for it. -/
theorem toNat_more_download
    (hLeft : u.retries.download.toNat < u.policy.attempts) :
    (Retries.more u.retries.download).toNat =
      u.retries.download.toNat + 1 := by
  have hBound := u.policy.attempts_le
  rw [Retries.toNat_more]
  omega

/- An attempt that is lost is the last one at the limit. -/
theorem attemptLost_last
    (hLast :
      u.retries.download.toNat + 1 = u.policy.attempts) :
    u.attemptLost =
      { u with
        retries.download :=
          Retries.more u.retries.download }.fail
            .downloadRetryMax .finishedIdle := by
  have hMore := toNat_more_download (u := u) (by omega)
  have hLimit :
      u.policy.downloadAttemptsMax ≤
        Retries.more u.retries.download := by
    rw [UInt8.le_iff_toNat_le, hMore, hLast]
    exact Nat.le_max_right _ _
  exact if_pos hLimit

/- Any attempt before that leaves another one. -/
theorem attemptLost_earlier
    (hEarlier :
      u.retries.download.toNat + 1 < u.policy.attempts) :
    u.attemptLost =
      { u with
        time.pendingSince := none
        retries.download :=
          Retries.more u.retries.download } := by
  have hMore := toNat_more_download (u := u) (by omega)
  have hWithin :
      ¬ u.policy.downloadAttemptsMax ≤
        Retries.more u.retries.download := by
    rw [UInt8.le_iff_toNat_le, hMore]
    unfold Policy.attempts at hEarlier
    omega
  exact if_neg hWithin

end Updater

namespace Attempts

variable
  {a a' : Attempts}
  {turn : Turn}
  {now : Instant}

/- A lost attempt is tracked, be it the last one or not. -/
theorem Tracked.lost
    (hTracked : a.Tracked turn.before)
    (hStage : turn.before.stage = .downloadReady)
    (hAfter :
      turn.after = (turn.before.entering now).attemptLost) :
    a.lose.Tracked turn.after := by
  have hLeft := hTracked.left hStage
  have hFresh := hTracked.fresh hStage
  have hStanding : a.lose.standing = 0 := by
    simp [standing, lose, hFresh]
  have hCount :
      (turn.before.entering now).retries.download.toNat =
        a.failed :=
    hTracked.count
  have hMore :=
    Updater.toNat_more_download (u := turn.before.entering now)
      (by rw [hCount]; exact hLeft)
  rw [hCount] at hMore
  rcases Nat.lt_or_eq_of_le (Nat.succ_le_of_lt hLeft) with
    hEarlier | hLast
  · rw [Updater.attemptLost_earlier
      (by rw [hCount]; exact hEarlier)] at hAfter
    rw [hAfter]
    constructor
    · exact hMore
    · rw [hStanding]
      exact hLeft
    · intro hBefore
      change turn.before.stage ∈ _ at hBefore
      rw [hStage] at hBefore
      simp [Stage.beforeDownload] at hBefore
    · exact fun hOther => absurd hStage hOther
    · exact fun _ => rfl
    · exact fun _ => hFresh
    · exact fun _ => hEarlier
  · rw [Updater.attemptLost_last
      (by rw [hCount]; exact hLast)] at hAfter
    rw [hAfter]
    constructor
    · exact hMore
    · rw [hStanding]
      exact hLeft
    · intro hBefore
      simp [Stage.beforeDownload] at hBefore
    · exact fun _ => rfl
    all_goals
      intro hReady
      cases hReady

/- On the download, there is room for one more attempt. -/
theorem Tracked.room
    {u : Updater}
    (hTracked : a.Tracked u)
    (hStage : u.stage = .downloadReady)
    (hSame : a'.failed = a.failed) :
    a'.failed + a'.standing ≤ u.policy.attempts := by
  have hLeft := hTracked.left hStage
  have hOne := a'.standing_le_one
  omega

/- The updater tracks each way in which an attempt goes on. -/
theorem Tracked.tries
    (hTracked : a.Tracked turn.before)
    (hStage : turn.before.stage = .downloadReady)
    (hTries : turn.Tries now a a') :
    a'.Tracked turn.after := by
  have hAhead :
      turn.before.stage ∉ Stage.beforeDownload := by
    rw [hStage]
    simp [Stage.beforeDownload]
  cases hTries with
  | begins hNone hAdds hAfter =>
      rw [hAfter]
      constructor
      · exact hTracked.count
      · exact hTracked.room hStage rfl
      · exact fun hBefore => absurd hBefore hAhead
      · exact fun hOther => absurd hStage hOther
      · exact fun _ => rfl
      · exact hTracked.fresh
      · exact hTracked.left
  | fails hAdds hAfter =>
      exact hTracked.lost hStage hAfter
  | accepts hSome hAdds hAfter =>
      rw [hAfter]
      constructor
      · exact hTracked.count
      · exact hTracked.room hStage rfl
      · intro hBefore
        simp [Stage.beforeDownload] at hBefore
      · exact fun _ => rfl
      all_goals
        intro hReady
        cases hReady
  | waits hSome hAdds hAfter =>
      rw [hAfter]
      exact
        ⟨hTracked.count, hTracked.within, hTracked.before,
          hTracked.apart, hTracked.pending, hTracked.fresh,
          hTracked.left⟩

variable
  {talk rest : List Exchange}

/- The updater tracks the attempts in any turn that works. -/
theorem Tracked.works
    (hTracked : a.Tracked turn.before)
    (hWorks : turn.Works now rest) :
    (a.watch turn.before turn.talk).Tracked turn.after := by
  by_cases hStage : turn.before.stage = .downloadReady
  · have hTries :=
      hWorks.tries hStage (hTracked.pending hStage)
    exact hTracked.tries hStage hTries
  · rw [(hWorks.apart hStage).watch]
    exact hTracked.elsewhere hWorks hStage

/- What is sent and counted in a turn is what is seen there. -/
theorem Counted.unfolds
    (hCounted : a.Counted talk)
    (hTracked : a.Tracked turn.before)
    (hUnfolds :
      (turn.call.carryOut turn.before).Unfolds turn.talk
        (some turn.after)) :
    (a.watch turn.before turn.talk).Counted
      (talk ++ turn.talk) := by
  rcases Turn.works_or_rests hUnfolds with
    ⟨now, rest, hWorks⟩ | hRests
  · by_cases hStage : turn.before.stage = .downloadReady
    · have hTries :=
        hWorks.tries hStage (hTracked.pending hStage)
      exact hCounted.tries (hTracked.fresh hStage) hTries
    · have hApart := hWorks.apart hStage
      rw [hApart.watch]
      exact hCounted.apart hApart
  · rw [hRests.apart.watch]
    exact hCounted.apart hRests.apart

/- There are never more attempts than are allowed. -/
theorem Tracked.seen_within
    (hTracked : a.Tracked turn.before)
    (hUnfolds :
      (turn.call.carryOut turn.before).Unfolds turn.talk
        (some turn.after)) :
    (a.watch turn.before turn.talk).failed +
        (a.watch turn.before turn.talk).standing ≤
      turn.before.policy.attempts := by
  rcases Turn.works_or_rests hUnfolds with
    ⟨now, rest, hWorks⟩ | hRests
  · rw [← hWorks.keeps.policy]
    exact (hTracked.works hWorks).within
  · rw [hRests.apart.watch]
    exact hTracked.within

end Attempts

------------------------------------------------------------
-- Runs
------------------------------------------------------------

/- In the turn, an attempt fails, as the onlooker sees it. -/
def Turn.FailsAttempt
    (turns : List Turn)
    (turn : Turn) : Prop :=
  (Attempts.seen turns).failed <
    (Attempts.seen (turns ++ [turn])).failed

instance
    (turns : List Turn)
    (turn : Turn) :
    Decidable (turn.FailsAttempt turns) := by
  unfold Turn.FailsAttempt
  infer_instance

/- The turn goes on to try another download. -/
structure Turn.DownloadsAgain
    (turn : Turn) : Prop where
  stage : turn.after.stage = .downloadReady
  status : turn.after.status = turn.before.status

/- The turn ends the run without a download. -/
structure Turn.EndsDownload
    (turn : Turn) : Prop where
  stage : turn.after.stage = .finishedIdle
  status : turn.after.status = .failed .downloadRetryMax

namespace Turn

variable
  {turn : Turn}
  {now : Instant}
  {a a' : Attempts}

/- Where an attempt fails, the updater has lost it. -/
theorem Tries.lost
    (hTries : turn.Tries now a a')
    (hFails : a.failed < a'.failed) :
    a'.failed = a.failed + 1 ∧
      turn.after = (turn.before.entering now).attemptLost := by
  cases hTries with
  | begins => exact absurd hFails (Nat.lt_irrefl _)
  | fails hAdds hAfter => exact ⟨rfl, hAfter⟩
  | accepts => exact absurd hFails (Nat.lt_irrefl _)
  | waits => exact absurd hFails (Nat.lt_irrefl _)

/- Where none is pending, another one begins. -/
theorem Tries.downloads
    (hTries : turn.Tries now a a')
    (hNone : a.pending = none) :
    turn.talk.countP Exchange.isDownload = 1 := by
  cases hTries with
  | begins _ hAdds hAfter => exact hAdds.downloads
  | fails hAdds hAfter =>
      rw [hNone] at hAdds
      exact hAdds.downloads
  | accepts hSome hAdds hAfter =>
      rw [hNone] at hSome
      cases hSome
  | waits hSome hAdds hAfter =>
      rw [hNone] at hSome
      cases hSome

/- Where none fails, the run does not end for want of one. -/
theorem Tries.status
    (hTries : turn.Tries now a a')
    (hStands : ¬ a.failed < a'.failed) :
    turn.after.status = turn.before.status := by
  cases hTries with
  | begins hNone hAdds hAfter => rw [hAfter]; rfl
  | fails => exact absurd (Nat.lt_succ_self _) hStands
  | accepts hSome hAdds hAfter => rw [hAfter]; rfl
  | waits hSome hAdds hAfter => rw [hAfter]; rfl

end Turn

namespace Life

variable
  {s : Setting}
  {turns : List Turn}
  {turn : Turn}
  {l l' : Life}

/- In each run, the attempts are tracked. -/
theorem Run.tracked
    (hRun : l.Run s turns) :
    ∀ u ∈ l.updater, (Attempts.seen turns).Tracked u := by
  refine
    Run.follows
      (fun turns u => (Attempts.seen turns).Tracked u)
      ?_ ?_ ?_ hRun
  · intro u hRenewed
    exact Attempts.tracked_renewed hRenewed
  · intro turns turn hRests hAlike hTracked
    rw [Attempts.seen_concat, hRests.apart.watch]
    exact hTracked.rests hAlike
  · intro turns turn now rest hWorks hTracked
    rw [Attempts.seen_concat]
    exact hTracked.works hWorks

/- In each run, the attempts are counted. -/
theorem Run.counted
    (hRun : l.Run s turns) :
    (Attempts.seen turns).Counted (Turn.said turns) := by
  induction hRun with
  | boots =>
      exact Attempts.counted_nil
  | begins =>
      exact Attempts.counted_nil
  | goesOn hBefore hTakes _ ih =>
      rw [Attempts.seen_concat, Turn.said_concat]
      exact
        ih.unfolds (hBefore.tracked _ hTakes.before)
          hTakes.unfolds

/- Within a call, cut off or not, no attempt is too many. -/
theorem Run.downloads_le
    {u : Updater}
    {call : Updater.Call}
    {talk : List Exchange}
    (hRun : l.Run s turns)
    (hUp : l.updater = some u)
    (hCalls : l.Calls s call l')
    (hTalk :
      l'.course.exchanges = l.course.exchanges ++ talk) :
    (Turn.said turns ++ talk).countP Exchange.isDownload ≤
      u.policy.attempts := by
  -- A call that is cut off has sent no more than it would have
  -- sent had it come back, and for that the limit is known.
  rcases Turn.exists_whole hCalls hTalk with
    ⟨turn, hBefore, hPrefix, hUnfolds⟩
  cases hUp.symm.trans hBefore
  have hTracked := hRun.tracked _ hUp
  have hCounted := hRun.counted.unfolds hTracked hUnfolds
  calc
    (Turn.said turns ++ talk).countP Exchange.isDownload
    _ ≤ (Turn.said turns ++ turn.talk).countP
          Exchange.isDownload := by
      rw [List.countP_append, List.countP_append]
      exact
        Nat.add_le_add_left hPrefix.sublist.countP_le _
    _ ≤ turn.before.policy.attempts := by
      rw [hCounted.downloads]
      exact hTracked.seen_within hUnfolds

/- An attempt that fails ends the run if it is the last one. -/
theorem Run.failsAttempt
    (hRun : l.Run s turns)
    (hTakes : turn.Takes s l l')
    (hFails : turn.FailsAttempt turns) :
    (Attempts.seen (turns ++ [turn])).failed ≤
        turn.before.policy.attempts ∧
      ((Attempts.seen (turns ++ [turn])).failed <
          turn.before.policy.attempts →
        turn.DownloadsAgain) ∧
      ((Attempts.seen (turns ++ [turn])).failed =
          turn.before.policy.attempts →
        turn.EndsDownload) := by
  have hTracked := hRun.tracked _ hTakes.before
  unfold Turn.FailsAttempt at hFails
  rw [Attempts.seen_concat] at hFails ⊢
  rcases Turn.works_or_rests hTakes.unfolds with
    ⟨now, rest, hWorks⟩ | hRests
  · by_cases hStage : turn.before.stage = .downloadReady
    · have hTries :=
        hWorks.tries hStage (hTracked.pending hStage)
      rcases hTries.lost hFails with ⟨hOne, hAfter⟩
      have hCount :
          (turn.before.entering now).retries.download.toNat =
            (Attempts.seen turns).failed :=
        hTracked.count
      rw [hOne]
      refine ⟨hTracked.left hStage, ?_, ?_⟩
      · intro hEarlier
        rw [Updater.attemptLost_earlier
          (by rw [hCount]; exact hEarlier)] at hAfter
        constructor <;> rw [hAfter]
        · exact hStage
        · rfl
      · intro hLast
        rw [Updater.attemptLost_last
          (by rw [hCount]; exact hLast)] at hAfter
        constructor <;> rw [hAfter] <;> rfl
    · rw [(hWorks.apart hStage).watch] at hFails
      exact absurd hFails (Nat.lt_irrefl _)
  · rw [hRests.apart.watch] at hFails
    exact absurd hFails (Nat.lt_irrefl _)

/- A run only fails for want of attempts with the last one. -/
theorem Run.retryMax
    (hRun : l.Run s turns)
    (hTakes : turn.Takes s l l')
    (hBefore : turn.before.status ≠ .failed .downloadRetryMax)
    (hAfter : turn.after.status = .failed .downloadRetryMax) :
    turn.FailsAttempt turns ∧
      (Attempts.seen (turns ++ [turn])).failed =
        turn.before.policy.attempts := by
  have hTracked := hRun.tracked _ hTakes.before
  have hFails : turn.FailsAttempt turns := by
    unfold Turn.FailsAttempt
    rw [Attempts.seen_concat]
    rcases Turn.works_or_rests hTakes.unfolds with
      ⟨now, rest, hWorks⟩ | hRests
    · by_cases hStage : turn.before.stage = .downloadReady
      · have hTries :=
          hWorks.tries hStage (hTracked.pending hStage)
        by_contra hStands
        rw [hTries.status hStands] at hAfter
        exact hBefore hAfter
      · -- Each other stage ends in failures of its own.
        have hOther :
            Failure.downloadRetryMax ∉
              turn.before.stage.failures := by
          cases hAt : turn.before.stage <;>
            simp [hAt] at hStage ⊢
        exact
          absurd (hWorks.keeps.failure _ hOther hAfter) hBefore
    · rw [hRests.spared.status] at hAfter
      exact absurd hAfter hBefore
  refine ⟨hFails, ?_⟩
  rcases hRun.failsAttempt hTakes hFails with
    ⟨hWithin, hAgain, _⟩
  rcases Nat.lt_or_eq_of_le hWithin with hEarlier | hLast
  · rw [(hAgain hEarlier).status] at hAfter
    exact absurd hAfter hBefore
  · exact hLast

/- The updater of a run was started, and never pauses there. -/
theorem Run.unpaused
    (hRun : l.Run s turns) :
    ∀ u ∈ l.updater,
      u.started = true ∧
        (u.stage = .downloadReady → u.cooldown = none) := by
  refine
    Run.follows
      (fun _ u => u.started = true ∧
        (u.stage = .downloadReady → u.cooldown = none))
      ?_ ?_ ?_ hRun
  · intro u hRenewed
    exact ⟨hRenewed.started, fun _ => hRenewed.cooldown⟩
  · intro turns turn hRests hAlike hBefore
    rw [hAlike.started, hAlike.stage, hAlike.cooldown]
    exact hBefore
  · intro turns turn now rest hWorks hBefore
    refine ⟨hWorks.keeps.started.trans hBefore.1, ?_⟩
    intro hStage
    rw [hWorks.cooldown, Turn.pause, hStage,
      Stage.pause_downloadReady]
    rfl

/- So each tick works on the download. -/
theorem Run.works_on_download
    (hRun : l.Run s turns)
    (hTakes : turn.Takes s l l')
    (hStage : turn.before.stage = .downloadReady)
    (hTick : turn.call = .tick) :
    ∃ now rest, turn.Works now rest := by
  rcases hRun.unpaused _ hTakes.before with
    ⟨hStarted, hUnpaused⟩
  exact
    Turn.exists_works_of_tick hTick hStarted (hUnpaused hStage)
      hTakes.unfolds

/- A tick with no attempt pending begins one. -/
theorem Run.begins_attempt
    (hRun : l.Run s turns)
    (hTakes : turn.Takes s l l')
    (hStage : turn.before.stage = .downloadReady)
    (hNone : turn.before.time.pendingSince = none)
    (hTick : turn.call = .tick) :
    turn.talk.countP Exchange.isDownload = 1 := by
  have hTracked := hRun.tracked _ hTakes.before
  have hPending := hTracked.pending hStage
  rcases hRun.works_on_download hTakes hStage hTick with
    ⟨now, rest, hWorks⟩
  rw [hNone] at hPending
  exact
    (hWorks.tries hStage (hNone.trans hPending)).downloads
      hPending.symm

/-
  A tick with an attempt pending takes its completion, if there
  is one, and the attempt fails as that decides. If there is
  none, time alone decides.
-/
theorem Run.tends_attempt
    {since : Instant}
    (hRun : l.Run s turns)
    (hTakes : turn.Takes s l l')
    (hPending : (Attempts.seen turns).pending = some since)
    (hTick : turn.call = .tick) :
    ∃ (now : Instant) (completion : Option Completion),
      turn.workedAt? = some now ∧
        (⟨.takeCompletion, completion⟩ : Exchange) ∈
            turn.talk ∧
          (turn.FailsAttempt turns ↔
            (∀ done ∈ completion,
              Updater.accepts turn.before.checkpoint.path done =
                false) ∧
              (completion = none →
                since.Elapsed
                  turn.before.policy.downloadTimeout now)) := by
  have hTracked := hRun.tracked _ hTakes.before
  have hStage : turn.before.stage = .downloadReady := by
    by_contra hApart
    rw [hTracked.apart hApart] at hPending
    cases hPending
  rcases hRun.works_on_download hTakes hStage hTick with
    ⟨now, rest, hWorks⟩
  rcases hWorks.takes_completion hStage
    ((hTracked.pending hStage).trans hPending)
    (Attempts.seen turns) with
    ⟨completion, hMem, hSeen⟩
  refine ⟨now, completion, hWorks.worked, hMem, ?_⟩
  unfold Turn.FailsAttempt
  rw [Attempts.seen_concat, hSeen]
  exact Attempts.failed_lt_see_completion hPending completion

/-
  A run gives up its download after exactly as many attempts as
  are allowed. At the start of each attempt the count is below
  the limit, and it can grow. Commands were sent, and telemetry
  has counted, for the attempts that have failed, and besides
  them for the one that is pending or was accepted. No call, cut
  off or not, sends more commands than are allowed. A tick with no
  attempt pending begins one. A tick with an attempt pending takes
  its completion: the attempt fails in that very tick if it is
  completed with another image, or not at all and its timeout has
  passed since it began. An attempt that fails ends the run if it
  is the last one, is followed by another one if it is not, and
  nothing else ends the run as if no attempt were left.
-/
theorem attempts_limited
    {u : Updater}
    (hRun : l.Run s turns)
    (hUp : l.updater = some u) :
    (u.stage = .downloadReady → u.time.pendingSince = none →
      u.retries.download.toNat < u.policy.attempts ∧
        (u.retries.download + 1).toNat =
          u.retries.download.toNat + 1) ∧
      (Turn.said turns).countP Exchange.isDownload =
        (Attempts.seen turns).failed +
          (Attempts.seen turns).standing ∧
      (∀ t : Telemetry,
        (t.after (Turn.said turns)).counts .downloadAttempt =
            t.counts .downloadAttempt +
              .ofNat
                ((Attempts.seen turns).failed +
                  (Attempts.seen turns).standing) ∧
          (t.after (Turn.said turns)).counts
              .downloadFailure =
            t.counts .downloadFailure +
              .ofNat (Attempts.seen turns).failed) ∧
      (∀ call l' talk, l.Calls s call l' →
        l'.course.exchanges = l.course.exchanges ++ talk →
          (Turn.said turns ++ talk).countP
              Exchange.isDownload ≤ u.policy.attempts) ∧
      ∀ turn l', turn.Takes s l l' →
        (turn.before.stage = .downloadReady →
          turn.before.time.pendingSince = none →
          turn.call = .tick →
            turn.talk.countP Exchange.isDownload = 1) ∧
        (∀ since,
          (Attempts.seen turns).pending = some since →
          turn.call = .tick →
            ∃ (now : Instant) (completion : Option Completion),
              turn.workedAt? = some now ∧
                (⟨.takeCompletion, completion⟩ : Exchange) ∈
                    turn.talk ∧
                  (turn.FailsAttempt turns ↔
                    (∀ done ∈ completion,
                      Updater.accepts u.checkpoint.path done =
                        false) ∧
                      (completion = none →
                        since.Elapsed
                          u.policy.downloadTimeout now))) ∧
        (turn.FailsAttempt turns →
          (Attempts.seen (turns ++ [turn])).failed ≤
              u.policy.attempts ∧
            ((Attempts.seen (turns ++ [turn])).failed <
                u.policy.attempts →
              turn.DownloadsAgain) ∧
            ((Attempts.seen (turns ++ [turn])).failed =
                u.policy.attempts →
              turn.EndsDownload)) ∧
          (turn.before.status ≠ .failed .downloadRetryMax →
            turn.after.status = .failed .downloadRetryMax →
              turn.FailsAttempt turns ∧
                (Attempts.seen (turns ++ [turn])).failed =
                  u.policy.attempts) := by
  have hTracked := hRun.tracked u hUp
  have hCounted := hRun.counted
  refine ⟨?_, hCounted.downloads, ?_, ?_, ?_⟩
  · intro hStage _
    have hLeft := hTracked.left hStage
    rw [← hTracked.count] at hLeft
    refine ⟨hLeft, ?_⟩
    have hBound := u.policy.attempts_le
    rw [UInt8.toNat_add, UInt8.toNat_one]
    omega
  · intro t
    rw [Telemetry.counts_after, Telemetry.counts_after,
      hCounted.attempts, hCounted.failures]
    exact ⟨rfl, rfl⟩
  · intro call l' talk hCalls hTalk
    exact hRun.downloads_le hUp hCalls hTalk
  · intro turn l' hTakes
    cases hUp.symm.trans hTakes.before
    exact
      ⟨hRun.begins_attempt hTakes,
        fun since => hRun.tends_attempt hTakes,
        hRun.failsAttempt hTakes, hRun.retryMax hTakes⟩

end Life

------------------------------------------------------------
-- A Server without the Image
------------------------------------------------------------

/- The smooth script, but for a server without the image. -/
def Update.Script.imageless : Script where
  notices
  | _, .takeCompletion => ["+UUHTTPCR: 0,100,0,404"]
  | _, _ => []
  answer := Script.smooth.answer

/- The smooth script, but for a server that is never done. -/
def Update.Script.endless : Script where
  notices _ _ := []
  answer := Script.smooth.answer

/- A run with such a server that may try twice, to some tick. -/
def Replay.twice
    (script : Script)
    (count : Nat) : Replay :=
  let policy :=
    { Policy.standard with downloadAttemptsMax := 2 }
  (start .smooth policy true (Life.qualified 2)).ticks script
    count

theorem Replay.sound_twice
    (script : Script)
    (count : Nat) :
    (twice script count).Sound :=
  (sound_start _ _ _).ticks count

/-
  With two attempts, the first one that fails is followed by
  another one, and the second one ends the run. So does one that
  is never completed, in the first turn after its timeout.
-/
theorem Life.attempts_limited_without_image :
    (∃ turn : Turn,
      turn.Takes .board (Replay.twice .imageless 9).life
          ((Replay.twice .imageless 9).call .imageless
            .tick).life ∧
        turn.DownloadsAgain) ∧
      (∃ turn : Turn,
        turn.Takes .board (Replay.twice .imageless 11).life
            ((Replay.twice .imageless 11).call .imageless
              .tick).life ∧
          turn.EndsDownload) ∧
        ∃ turn : Turn,
          turn.Takes .board (Replay.twice .endless 11).life
              ((Replay.twice .endless 11).call .endless
                .tick).life ∧
            turn.EndsDownload := by
  have hMoments :
      (∃ turn ∈ (Replay.twice .imageless 9).turn? .imageless
          .tick,
        turn.before.policy.attempts = 2 ∧
          turn.FailsAttempt (Replay.twice .imageless 9).turns ∧
          (Attempts.seen
            ((Replay.twice .imageless 9).turns ++
              [turn])).failed = 1) ∧
        ∃ turn ∈ (Replay.twice .imageless 11).turn? .imageless
            .tick,
          turn.before.policy.attempts = 2 ∧
            turn.FailsAttempt
              (Replay.twice .imageless 11).turns ∧
            (Attempts.seen
              ((Replay.twice .imageless 11).turns ++
                [turn])).failed = 2 := by
    decide +kernel
  -- Of the server that is never done, only the times are known.
  have hLate :
      ∃ turn ∈ (Replay.twice .endless 11).turn? .endless .tick,
        turn.before.policy.attempts = 2 ∧
          (Attempts.seen
            (Replay.twice .endless 11).turns).failed = 1 ∧
          ∃ since ∈ (Attempts.seen
              (Replay.twice .endless 11).turns).pending,
            ∃ now ∈ turn.workedAt?,
              since.Elapsed
                  turn.before.policy.downloadTimeout now ∧
                ∀ exchange ∈ turn.talk,
                  exchange.isCompletion = false := by
    decide +kernel
  rcases hMoments with
    ⟨⟨first, hFirst, hFirstLimit, hFirstFails, hOne⟩,
      second, hSecond, hSecondLimit, hSecondFails, hTwo⟩
  rcases hLate with
    ⟨last, hLast, hLastLimit, hFailed, since, hPending, now,
      hNow, hElapsed, hNone⟩
  refine ⟨?_, ?_, ?_⟩
  · have hTakes := Replay.takes_call hFirst
    rcases attempts_limited (Replay.sound_twice _ 9)
      hTakes.before with ⟨_, _, _, _, hTurns⟩
    have hAgain := ((hTurns _ _ hTakes).2.2.1 hFirstFails).2.1
    rw [hOne, hFirstLimit] at hAgain
    exact ⟨first, hTakes, hAgain (by decide)⟩
  · have hTakes := Replay.takes_call hSecond
    rcases attempts_limited (Replay.sound_twice _ 11)
      hTakes.before with ⟨_, _, _, _, hTurns⟩
    have hOver := ((hTurns _ _ hTakes).2.2.1 hSecondFails).2.2
    rw [hTwo, hSecondLimit] at hOver
    exact ⟨second, hTakes, hOver rfl⟩
  · have hTakes := Replay.takes_call hLast
    rcases attempts_limited (Replay.sound_twice _ 11)
      hTakes.before with ⟨_, _, _, _, hTurns⟩
    rcases hTurns _ _ hTakes with ⟨_, hTends, hEnds, _⟩
    rcases hTends since hPending (Replay.call_of_turn hLast) with
      ⟨now', completion, hSame, hMem, hDecides⟩
    cases hSame.symm.trans hNow
    have hTaken : completion = none :=
      Option.not_isSome_iff_eq_none.mp
        (Bool.eq_false_iff.mp (hNone _ hMem))
    subst hTaken
    have hFails := hDecides.mpr ⟨nofun, fun _ => hElapsed⟩
    rcases hEnds hFails with ⟨hWithin, _, hOver⟩
    rw [hLastLimit] at hWithin hOver
    unfold Turn.FailsAttempt at hFails
    rw [hFailed] at hFails
    exact ⟨last, hTakes, hOver (by omega)⟩

end Fota
