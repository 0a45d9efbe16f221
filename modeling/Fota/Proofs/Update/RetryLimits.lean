import Fota.Proofs.Update.Replays
import Fota.Proofs.Update.Retries

/-
  This file shows how often a run tries again: each retry is
  given up after as many times as the policy allows, unless it
  allows as many as a count can hold; then it is never given up.

  Key definitions include:
    * `Retry.Tallied`
    * `Replay.Unlimited`

  The main statements are `Life.Run.late_iff`,
  `Life.Run.tallied`, `Life.retries_limited` and
  `Life.retries_unlimited_at_largest`.
-/

namespace Fota

open Update (Exchange Policy Script Setting Talk)

------------------------------------------------------------
-- Tallies
------------------------------------------------------------

/-
  The count of a retry is the number of its misses so far, as
  far as a count can hold it. Within a limit that is below the
  largest count there is one more miss at most, and after that
  the run is over.
-/
structure Retry.Tallied
    (k : Retry)
    (turns : List Turn)
    (u : Updater) : Prop where
  count :
    (k.count u.retries).toNat =
      min (turns.countP (Turn.misses k)) 255
  within :
    (k.limit u.policy).toNat < 255 →
      turns.countP (Turn.misses k) ≤ (k.limit u.policy).toNat ∨
        u.stage ∈ [.finishedIdle, .idle]

/- A run that is over stays so until another one begins. -/
theorem Updater.Edge.halted
    {u next : Updater}
    (hEdge : u.Edge next)
    (hOver : u.stage ∈ [Stage.finishedIdle, .idle]) :
    next.stage ∈ [Stage.finishedIdle, .idle] := by
  rcases hEdge with ⟨hSame, _⟩ | ⟨hMem, _⟩ | ⟨hModem, _⟩
  · rw [hSame]
    exact hOver
  · simp only [List.mem_cons, List.not_mem_nil, or_false]
      at hOver
    rcases hOver with hOver | hOver <;>
      rw [hOver] at hMem <;> simp at hMem
    simp [hMem]
  · rw [hModem] at hOver
    simp at hOver

namespace Retry

variable
  {k : Retry}
  {turns : List Turn}
  {turn : Turn}
  {u : Updater}
  {now : Instant}
  {rest : List Exchange}

theorem tallied_renewed
    (hRenewed : u.Renewed) :
    k.Tallied [] u := by
  constructor
  · rw [hRenewed.retries]
    cases k <;> rfl
  · intro _
    exact Or.inl (Nat.zero_le _)

/- A turn without work changes no tally. -/
theorem Tallied.rests
    (hTallied : k.Tallied turns turn.before)
    (hRests : turn.Rests)
    (hAlike : turn.before.Alike turn.after) :
    k.Tallied (turns ++ [turn]) turn.after := by
  have hSame :
      (turns ++ [turn]).countP (Turn.misses k) =
        turns.countP (Turn.misses k) := by
    simp [hRests.misses]
  constructor
  · rw [hSame, hAlike.retries]
    exact hTallied.count
  · rw [hSame, hAlike.policy, hAlike.stage]
    exact hTallied.within

/- A turn that misses nothing changes no tally. -/
theorem Tallied.hits
    (hTallied : k.Tallied turns turn.before)
    (hWorks : turn.Works now rest)
    (hHit : turn.misses k = false)
    (hCount :
      k.count turn.after.retries =
        k.count turn.before.retries) :
    k.Tallied (turns ++ [turn]) turn.after := by
  have hSame :
      (turns ++ [turn]).countP (Turn.misses k) =
        turns.countP (Turn.misses k) := by
    simp [hHit]
  constructor
  · rw [hSame, hCount]
    exact hTallied.count
  · rw [hSame, hWorks.keeps.policy]
    intro hLimit
    rcases hTallied.within hLimit with hWithin | hOver
    · exact Or.inl hWithin
    · exact Or.inr (hWorks.edge.halted hOver)

/- On the stage of a retry, the run is not over yet. -/
theorem Tallied.earlier_le
    (hTallied : k.Tallied turns u)
    (hStage : u.stage = k.stage)
    (hLimit : (k.limit u.policy).toNat < 255) :
    turns.countP (Turn.misses k) ≤
      (k.limit u.policy).toNat := by
  rcases hTallied.within hLimit with hWithin | hOver
  · exact hWithin
  · rw [hStage] at hOver
    cases k <;> simp [stage] at hOver

/- A count exceeds the limit when the misses do. -/
theorem Tallied.exceeds_iff
    (hTallied : k.Tallied turns turn.before)
    (hCounts : turn.Counts k) :
    k.limit turn.before.policy < k.count turn.after.retries ↔
      (k.limit turn.before.policy).toNat <
        min (turns.countP (Turn.misses k) + 1) 255 := by
  rw [hCounts.count, UInt8.lt_iff_toNat_lt,
    Retries.toNat_more, hTallied.count]
  omega

/- At a miss, the number of the misses before it decides. -/
theorem Tallied.decides
    (hTallied : k.Tallied turns turn.before)
    (hCounts : turn.Counts k) :
    (turns.countP (Turn.misses k) <
        (k.limit turn.before.policy).toNat →
      turn.TriesAgain k) ∧
      ((k.limit turn.before.policy).toNat < 255 →
        turns.countP (Turn.misses k) =
            (k.limit turn.before.policy).toNat →
          turn.GivesUp k) ∧
      ((k.limit turn.before.policy).toNat = 255 →
        turn.TriesAgain k) := by
  have hExceeds := hTallied.exceeds_iff hCounts
  refine ⟨?_, ?_, ?_⟩
  · intro hFew
    apply hCounts.again
    rw [hExceeds]
    omega
  · intro hLimit hLast
    apply hCounts.halt
    rw [hExceeds]
    omega
  · -- The count stops where the limit is, and never exceeds it.
    intro hLargest
    apply hCounts.again
    rw [hExceeds]
    omega

/- A miss is tallied, and the last one ends the run. -/
theorem Tallied.missed
    (hTallied : k.Tallied turns turn.before)
    (hWorks : turn.Works now rest)
    (hMiss : turn.misses k = true)
    (hStage : turn.before.stage = k.stage)
    (hCounts : turn.Counts k) :
    k.Tallied (turns ++ [turn]) turn.after := by
  have hMore :
      (turns ++ [turn]).countP (Turn.misses k) =
        turns.countP (Turn.misses k) + 1 := by
    simp [hMiss]
  constructor
  · rw [hMore, hCounts.count, Retries.toNat_more,
      hTallied.count]
    omega
  · rw [hMore, hWorks.keeps.policy]
    intro hLimit
    have hEarlier := hTallied.earlier_le hStage hLimit
    rcases Nat.lt_or_eq_of_le hEarlier with hFew | hLast
    · exact Or.inl hFew
    · right
      have hOver :=
        ((hTallied.decides hCounts).2.1 hLimit hLast).stage
      rw [hOver]
      cases k <;> simp [halt]

end Retry

namespace Life

variable
  {s : Setting}
  {turns : List Turn}
  {l l' : Life}

/-
  A turn is late when the timeout has passed since the first
  tick that has worked on its stage.
-/
theorem Run.late_iff
    {turn : Turn}
    {timeout : UInt32}
    (hRun : l.Run s turns)
    (hTakes : turn.Takes s l l')
    (hStage : turn.before.stage ≠ .setupCloudConnect) :
    turn.late timeout = true ↔
      ∃ now ∈ turn.workedAt?,
        ((Turn.firstWork? turns).getD now).Elapsed timeout
          now := by
  rw [← hRun.enteredAt _ hTakes.before hStage]
  unfold Turn.late
  cases turn.workedAt? with
  | none =>
      simp
  | some now =>
      rw [Option.any_some, decide_eq_true_iff]
      simp [Updater.TimedOut, Instant.Elapsed,
        StageTime.elapsed, Updater.entering, StageTime.enter]

/- In each run, the counts tell the misses. -/
theorem Run.tallied
    (hRun : l.Run s turns)
    (k : Retry) :
    ∀ u ∈ l.updater, k.Tallied turns u := by
  refine Run.follows k.Tallied ?_ ?_ ?_ hRun
  · intro u hRenewed
    exact Retry.tallied_renewed hRenewed
  · intro turns turn hRests hAlike hTallied
    exact hTallied.rests hRests hAlike
  · intro turns turn now rest hWorks hTallied
    by_cases hStage : turn.before.stage = k.stage
    · rcases hWorks.retries hStage with
        ⟨hMiss, hCounts⟩ | ⟨hHit, hRetries⟩
      · exact hTallied.missed hWorks hMiss hStage hCounts
      · exact hTallied.hits hWorks hHit (by rw [hRetries])
    · exact
        hTallied.hits hWorks (Turn.misses_of_stage hStage)
          (hWorks.count_eq hStage)

/-
  Every retry ends after exactly as many times as the policy
  allows, if that is less than the largest count: each miss up
  to then is tried again, the next one ends the run, and there
  is none after it. At the largest count, the comparison never
  holds, and each miss is tried again.
-/
theorem retries_limited
    {turn : Turn}
    {k : Retry}
    (hRun : l.Run s turns)
    (hTakes : turn.Takes s l l')
    (hMiss : turn.misses k = true) :
    ((k.limit turn.before.policy).toNat < 255 →
      turns.countP (Turn.misses k) ≤
          (k.limit turn.before.policy).toNat ∧
        (turns.countP (Turn.misses k) <
            (k.limit turn.before.policy).toNat →
          turn.TriesAgain k) ∧
        (turns.countP (Turn.misses k) =
            (k.limit turn.before.policy).toNat →
          turn.GivesUp k)) ∧
      ((k.limit turn.before.policy).toNat = 255 →
        turn.TriesAgain k) := by
  have hTallied := hRun.tallied k _ hTakes.before
  rcases Turn.works_or_rests hTakes.unfolds with
    ⟨now, rest, hWorks⟩ | hRests
  · have hStage : turn.before.stage = k.stage := by
      by_contra hOther
      rw [Turn.misses_of_stage hOther] at hMiss
      cases hMiss
    rcases hWorks.retries hStage with
      ⟨_, hCounts⟩ | ⟨hHit, _⟩
    · rcases hTallied.decides hCounts with
        ⟨hAgain, hOver, hEndless⟩
      refine ⟨?_, hEndless⟩
      intro hLimit
      exact
        ⟨hTallied.earlier_le hStage hLimit, hAgain,
          hOver hLimit⟩
    · rw [hHit] at hMiss
      cases hMiss
  · rw [hRests.misses] at hMiss
    cases hMiss

end Life

------------------------------------------------------------
-- Refused Starts
------------------------------------------------------------

/- The smooth script, but for a cloud that takes no event. -/
def Update.Script.unheard : Script where
  notices := Script.smooth.notices
  answer c
  | .publish _ => false
  | question => Script.smooth.answer c question

/-
  A run with a limit for publishing its start that was refused
  at each of some ticks.
-/
def Replay.refused
    (limit : UInt8)
    (count : Nat) : Replay :=
  let policy :=
    { Policy.standard with publishStartRetryMax := limit }
  let announcing :=
    (start .smooth policy true (Life.qualified 2)).ticks
      .smooth 2
  announcing.ticks .unheard count

theorem Replay.sound_refused
    (limit : UInt8)
    (count : Nat) :
    (refused limit count).Sound :=
  ((sound_start _ _ _).ticks _).ticks count

/-
  With one retry, the first refusal is tried again, and the
  second one ends the run.
-/
theorem Life.retries_limited_on_refused_starts :
    (∃ turn : Turn,
      turn.Takes .board (Replay.refused 1 0).life
          (Replay.refused 1 1).life ∧
        turn.TriesAgain .publishStart) ∧
      ∃ turn : Turn,
        turn.Takes .board (Replay.refused 1 1).life
            (Replay.refused 1 2).life ∧
          turn.GivesUp .publishStart := by
  have hMoments :
      ∀ count < 2,
        ∃ turn ∈ (Replay.refused 1 count).turn? .unheard .tick,
          turn.misses .publishStart = true ∧
            turn.before.policy.publishStartRetryMax = 1 ∧
            (Replay.refused 1 count).turns.countP
              (Turn.misses .publishStart) = count := by
    decide +kernel
  have hSound := Replay.sound_refused 1
  constructor
  · rcases hMoments 0 (by decide) with
      ⟨turn, hTurn, hMiss, hLimit, hEarlier⟩
    have hTakes := Replay.takes_call hTurn
    have hEnd := retries_limited (hSound 0) hTakes hMiss
    rw [hEarlier, Retry.limit, hLimit] at hEnd
    exact
      ⟨turn, hTakes, (hEnd.1 (by decide)).2.1 (by decide)⟩
  · rcases hMoments 1 (by decide) with
      ⟨turn, hTurn, hMiss, hLimit, hEarlier⟩
    have hTakes := Replay.takes_call hTurn
    have hEnd := retries_limited (hSound 1) hTakes hMiss
    rw [hEarlier, Retry.limit, hLimit] at hEnd
    exact ⟨turn, hTakes, (hEnd.1 (by decide)).2.2 rfl⟩

/- A refusal of a run whose limit is the largest count. -/
structure Replay.Unlimited
    (count : Nat)
    (r : Replay)
    (u : Updater) : Prop where
  sound : r.Sound
  up : r.life.updater = some u
  started : u.started = true
  cooldown : u.cooldown = none
  stage : u.stage = .setupCloudConnected
  limit : u.policy.publishStartRetryMax = 255
  refusals :
    r.turns.countP (Turn.misses .publishStart) = count

/- A tick that is refused, as the script has it. -/
theorem Update.Script.play_refused
    {u : Updater}
    {c : Update.Course}
    (hStarted : u.started = true)
    (hCooldown : u.cooldown = none)
    (hStage : u.stage = .setupCloudConnected) :
    ∃ now,
      (Script.unheard.play (Updater.Call.tick.carryOut u) c).1 =
          some (u.entering now).publishRefused ∧
        (Script.unheard.play (Updater.Call.tick.carryOut u)
            c).2.exchanges =
          c.exchanges ++
            [⟨.hearNotices, ()⟩, ⟨.now, now⟩,
              ⟨.isCloudConnected, true⟩,
              ⟨.publish .started, false⟩] := by
  have hSame : u.checkpoint.stage = _ := hStage
  refine ⟨.ofNat (1000000 * (c.past.length + 1)), ?_⟩
  unfold Updater.Call.carryOut Updater.Call.talk Updater.tick
    Updater.enterAndWork Updater.work
  simp [hStarted, hCooldown, hSame, Updater.stage,
    Cooldown.update, Updater.setupCloudConnected_eq,
    Talk.publish, Script.play, Script.reply?, Script.unheard,
    Script.smooth, Update.Course.hear, Update.Course.note,
    Update.Course.exchanges, Update.Happening.exchange?,
    Updater.entering]

/- At the largest limit, a refusal changes the count alone. -/
theorem Updater.publishRefused_unlimited
    {u : Updater}
    (hLimit : u.policy.publishStartRetryMax = 255) :
    u.publishRefused =
      { u with
        retries.publishStart :=
          Retries.more u.retries.publishStart } := by
  have hWithin :
      ¬ (255 : UInt8) < Retries.more u.retries.publishStart := by
    rw [UInt8.lt_iff_toNat_lt]
    have hBound := (Retries.more u.retries.publishStart).toNat_lt
    rw [show (255 : UInt8).toNat = 255 from rfl]
    omega
  dsimp only [publishRefused]
  rw [hLimit, if_neg hWithin]

namespace Replay

variable
  {count : Nat}
  {r : Replay}
  {u : Updater}

/- The turn of a tick that is refused. -/
theorem Unlimited.turn?_eq
    (hUnlimited : r.Unlimited count u) :
    ∃ now,
      r.turn? .unheard .tick =
        some
          ⟨.tick, u,
            [⟨.hearNotices, ()⟩, ⟨.now, now⟩,
              ⟨.isCloudConnected, true⟩,
              ⟨.publish .started, false⟩],
            (u.entering now).publishRefused⟩ := by
  rcases Script.play_refused (c := r.life.course)
    hUnlimited.started hUnlimited.cooldown hUnlimited.stage with
    ⟨now, hAfter, hTalk⟩
  refine ⟨now, ?_⟩
  have hNext :
      r.next .unheard .tick =
        ⟨(Script.unheard.play (Updater.Call.tick.carryOut u)
            r.life.course).2,
          some (u.entering now).publishRefused⟩ := by
    unfold next Life.Act.perform
    rw [hUnlimited.up, ← hAfter]
  unfold turn?
  rw [hNext]
  dsimp only
  rw [hUnlimited.up, hTalk, List.drop_left]

/- At the largest limit, each refusal is tried again. -/
theorem Unlimited.next
    (hUnlimited : r.Unlimited count u) :
    ∃ turn, r.turn? .unheard .tick = some turn ∧
      turn.before = u ∧
      turn.misses .publishStart = true ∧
      (r.call .unheard .tick).Unlimited (count + 1)
        turn.after := by
  rcases hUnlimited.turn?_eq with ⟨now, hTurn⟩
  rw [Updater.publishRefused_unlimited
    (u := u.entering now) hUnlimited.limit] at hTurn
  generalize hMade : Turn.mk _ _ _ _ = turn at hTurn
  have hTakes := takes_call hTurn
  have hMiss : turn.misses .publishStart = true := by
    rw [← hMade]
    simp [Turn.misses, Turn.workedAt?, Exchange.clock?,
      Exchange.isStartPublished, Retry.stage, Cooldown.update,
      hUnlimited.stage, hUnlimited.cooldown]
  have hGoesOn : ¬ turn.Begins := by
    rintro ⟨hIdle, _⟩
    rw [← hMade] at hIdle
    exact absurd (hUnlimited.stage.symm.trans hIdle) (by simp)
  refine ⟨turn, hTurn, by rw [← hMade], hMiss, ?_⟩
  constructor
  · exact hUnlimited.sound.call .tick
  · exact hTakes.after
  · rw [← hMade]
    exact hUnlimited.started
  · rw [← hMade]
    rfl
  · rw [← hMade]
    exact hUnlimited.stage
  · rw [← hMade]
    exact hUnlimited.limit
  · rw [turns_call hTurn, if_neg hGoesOn, List.countP_append,
      hUnlimited.refusals]
    simp [hMiss]

/- With the largest limit, no number of refusals is too many. -/
theorem exists_unlimited
    (count : Nat) :
    ∃ r u, Unlimited count r u := by
  induction count with
  | zero =>
      have hMoment :
          ∃ u ∈ (refused 255 0).life.updater,
            u.started = true ∧ u.cooldown = none ∧
              u.stage = .setupCloudConnected ∧
              u.policy.publishStartRetryMax = 255 ∧
              (refused 255 0).turns.countP
                (Turn.misses .publishStart) = 0 := by
        decide +kernel
      rcases hMoment with
        ⟨u, hUp, hStarted, hCooldown, hStage, hLimit, hNone⟩
      exact
        ⟨refused 255 0, u, sound_refused 255 0, hUp,
          hStarted, hCooldown, hStage, hLimit, hNone⟩
  | succ count ih =>
      rcases ih with ⟨r, u, hUnlimited⟩
      rcases hUnlimited.next with ⟨turn, _, _, _, hNext⟩
      exact ⟨_, turn.after, hNext⟩

end Replay

/-
  A limit that is the largest count does not limit a retry: the
  refusal after as many as the limit does not end the run.
-/
theorem Life.retries_unlimited_at_largest :
    ¬ ∀ (k : Retry) (turns : List Turn) (turn : Turn)
        (l l' : Life),
      l.Run .board turns → turn.Takes .board l l' →
        turn.misses k = true →
        turns.countP (Turn.misses k) =
            (k.limit turn.before.policy).toNat →
          turn.GivesUp k := by
  intro hAlways
  rcases Replay.exists_unlimited 255 with ⟨r, u, hUnlimited⟩
  rcases hUnlimited.next with
    ⟨turn, hTurn, hBefore, hMiss, hNext⟩
  have hGivesUp :=
    hAlways .publishStart _ turn _ _ hUnlimited.sound
      (Replay.takes_call hTurn) hMiss (by
        rw [hUnlimited.refusals, hBefore, Retry.limit,
          hUnlimited.limit]
        rfl)
  have hStage := hGivesUp.stage
  rw [hNext.stage] at hStage
  cases hStage

end Fota
