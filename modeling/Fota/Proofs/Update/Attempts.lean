import Fota.Proofs.Update.Frames

/-
  This file defines what an onlooker knows of the attempts to
  download an image: how many have failed, since when one is
  pending, and whether one was accepted. It is read off what was
  asked and answered, and so is what telemetry counts.

  Key definitions include:
    * `Attempts`
    * `Attempts.see`
    * `Attempts.seen`
    * `Telemetry.hear`
    * `Turn.Adds`
    * `Turn.Tries`

  The main statements are `Turn.Works.tries` and
  `Turn.Works.apart`.
-/

namespace Fota

open Update (Exchange Question Talk)

------------------------------------------------------------
-- Talk about Attempts
------------------------------------------------------------

/- The question is about an attempt to download. -/
def Update.Question.isAttempt : Question → Bool
| .command (.download _) => true
| .takeCompletion => true
| .count .downloadAttempt => true
| .count .downloadFailure => true
| _ => false

namespace Update.Exchange

/- The exchange is about an attempt to download. -/
def isAttempt
    (exchange : Exchange) : Bool :=
  exchange.question.isAttempt

/- A command to download was sent. -/
def isDownload : Exchange → Bool
| ⟨.command (.download _), _⟩ => true
| _ => false

/- The end of a transfer was taken out of the mailbox. -/
def isCompletion : Exchange → Bool
| ⟨.takeCompletion, completion⟩ => completion.isSome
| _ => false

/- Telemetry was told to count. -/
def counts
    (counter : Counter) : Exchange → Bool
| ⟨.count other, _⟩ => decide (other = counter)
| _ => false

theorem isAttempt_of_isDownload
    (exchange : Exchange)
    (hDownload : exchange.isDownload = true) :
    exchange.isAttempt = true := by
  unfold isDownload at hDownload
  split at hDownload
  · rfl
  · cases hDownload

theorem isAttempt_of_counts
    {counter : Counter}
    (hCounter :
      counter ∈ [.downloadAttempt, .downloadFailure])
    (exchange : Exchange)
    (hCounts : exchange.counts counter = true) :
    exchange.isAttempt = true := by
  unfold counts at hCounts
  split at hCounts
  · rw [decide_eq_true_iff] at hCounts
    subst hCounts
    simp only [List.mem_cons, List.not_mem_nil, or_false]
      at hCounter
    rcases hCounter with rfl | rfl <;> rfl
  · cases hCounts

end Update.Exchange

------------------------------------------------------------
-- Telemetry
------------------------------------------------------------

namespace Telemetry

/- Telemetry after what it may be told in an exchange. -/
def hear
    (t : Telemetry) : Exchange → Telemetry
| ⟨.count counter, _⟩ => t.count counter
| ⟨.showStatus status, _⟩ => t.showStatus status
| _ => t

/- Telemetry after what was asked and answered. -/
def after
    (talk : List Exchange)
    (t : Telemetry) : Telemetry :=
  talk.foldl hear t

/- A counter grows by one when telemetry is told to count. -/
theorem counts_hear
    (t : Telemetry)
    (counter : Counter)
    (exchange : Exchange) :
    (t.hear exchange).counts counter =
      t.counts counter +
        (if exchange.counts counter then 1 else 0) := by
  rcases exchange with ⟨question, answer⟩
  cases question with
  | count other =>
      by_cases hSame : counter = other
      · simp [hear, Telemetry.count, Exchange.counts, hSame]
      · simp [hear, Telemetry.count, Exchange.counts, hSame,
          Ne.symm hSame]
  | _ =>
      simp [hear, Exchange.counts, Telemetry.showStatus]

/- A counter grows by the times that telemetry was told to. -/
theorem counts_after
    (t : Telemetry)
    (counter : Counter)
    (talk : List Exchange) :
    (t.after talk).counts counter =
      t.counts counter +
        .ofNat (talk.countP (Exchange.counts counter)) := by
  unfold after
  induction talk generalizing t with
  | nil =>
      simp
  | cons exchange talk ih =>
      rw [List.foldl_cons, ih, counts_hear, List.countP_cons,
        UInt32.ofNat_add, UInt32.add_assoc,
        UInt32.add_comm (.ofNat _)]
      split <;> rfl

end Telemetry

------------------------------------------------------------
-- Attempts
------------------------------------------------------------

/-
  What an onlooker knows of the attempts of a run: how many have
  failed, since when one is pending, and whether one was
  accepted.
-/
structure Attempts where
  failed : Nat
  pending : Option Instant
  accepted : Bool
deriving DecidableEq, Repr

namespace Attempts

/- There was no attempt yet. -/
def untried : Attempts where
  failed := 0
  pending := none
  accepted := false

/- One more attempt has failed. -/
def lose
    (a : Attempts) : Attempts :=
  { a with
    failed := a.failed + 1
    pending := none }

/- How many attempts are pending or were accepted. -/
def standing
    (a : Attempts) : Nat :=
  if a.pending.isSome ∨ a.accepted then 1 else 0

/-
  What is seen in an exchange of a call that read the clock. An
  attempt has failed whose command is refused or times out,
  which is completed with another image, or which is found not
  to be completed when its timeout has passed.
-/
def see
    (u : Updater)
    (now : Option Instant)
    (a : Attempts) :
    Exchange → Attempts
| ⟨.command (.download _), reply⟩ =>
    if reply.outcome.isOk then
      { a with pending := now }
    else
      a.lose
| ⟨.takeCompletion, some completion⟩ =>
    if Updater.accepts u.checkpoint.path completion then
      { a with
        pending := none
        accepted := true }
    else
      a.lose
| ⟨.takeCompletion, none⟩ =>
    if ∃ since ∈ a.pending, ∃ t ∈ now,
        since.Elapsed u.policy.downloadTimeout t then
      a.lose
    else
      a
| _ => a

/- What is seen in a call of an updater. -/
def watch
    (u : Updater)
    (talk : List Exchange)
    (a : Attempts) : Attempts :=
  talk.foldl (see u (talk.findSome? Exchange.clock?)) a

/- What was seen in the turns of a run. -/
def seen
    (turns : List Turn) : Attempts :=
  turns.foldl (fun a turn => a.watch turn.before turn.talk)
    untried

theorem seen_concat
    (turns : List Turn)
    (turn : Turn) :
    seen (turns ++ [turn]) =
      (seen turns).watch turn.before turn.talk := by
  simp [seen]

variable
  {u : Updater}
  {now : Option Instant}
  {talk : List Exchange}

/- What is not about an attempt changes nothing. -/
theorem see_of_apart
    {exchange : Exchange}
    (a : Attempts)
    (hApart : exchange.isAttempt = false) :
    a.see u now exchange = a := by
  unfold see
  split
  · exact Bool.noConfusion hApart
  · exact Bool.noConfusion hApart
  · exact Bool.noConfusion hApart
  · rfl

/-
  A pending attempt fails in the look for its completion: with
  another image, or with none when its timeout has passed.
-/
theorem failed_lt_see_completion
    {a : Attempts}
    {since t : Instant}
    (hPending : a.pending = some since)
    (completion : Option Completion) :
    a.failed <
        (a.see u (some t)
          ⟨.takeCompletion, completion⟩).failed ↔
      (∀ done ∈ completion,
        Updater.accepts u.checkpoint.path done = false) ∧
        (completion = none →
          since.Elapsed u.policy.downloadTimeout t) := by
  cases completion with
  | some done =>
      cases hAccepts :
          Updater.accepts u.checkpoint.path done <;>
        simp [see, lose, hAccepts]
  | none =>
      by_cases hLate :
          since.Elapsed u.policy.downloadTimeout t <;>
        simp [see, lose, hPending, hLate]

/- What is seen depends on the talk about attempts alone. -/
theorem foldl_see
    (a : Attempts) :
    talk.foldl (see u now) a =
      (talk.filter Exchange.isAttempt).foldl (see u now) a := by
  rw [List.foldl_filter]
  congr 1
  funext a exchange
  split
  · rfl
  · rename_i hApart
    exact see_of_apart a (Bool.not_eq_true _ ▸ hApart)

end Attempts

------------------------------------------------------------
-- Counts of a Turn
------------------------------------------------------------

namespace Turn

/- What was asked and answered in the turns of a run. -/
def said
    (turns : List Turn) : List Exchange :=
  turns.flatMap talk

theorem said_concat
    (turns : List Turn)
    (turn : Turn) :
    said (turns ++ [turn]) =
      said turns ++ turn.talk := by
  simp [said]

/- The turn adds to what was sent and what was counted. -/
structure Adds
    (attempts failures : Nat)
    (turn : Turn) : Prop where
  downloads :
    turn.talk.countP Exchange.isDownload = attempts
  attempts :
    turn.talk.countP (Exchange.counts .downloadAttempt) =
      attempts
  failures :
    turn.talk.countP (Exchange.counts .downloadFailure) =
      failures

/- What is about attempts is counted in the talk about them. -/
theorem countP_filter_isAttempt
    {p : Exchange → Bool}
    (talk : List Exchange)
    (hPart : ∀ exchange : Exchange,
      p exchange = true → exchange.isAttempt = true) :
    (talk.filter Exchange.isAttempt).countP p =
      talk.countP p := by
  rw [List.countP_filter]
  apply List.countP_congr
  intro exchange _
  simp only [Bool.and_eq_true, and_iff_left_iff_imp]
  exact hPart exchange

/- The talk about attempts tells what is added. -/
theorem adds_of_filter
    {turn : Turn}
    {part : List Exchange}
    {attempts failures : Nat}
    (hPart : turn.talk.filter Exchange.isAttempt = part)
    (hDownloads : part.countP Exchange.isDownload = attempts)
    (hAttempts :
      part.countP (Exchange.counts .downloadAttempt) =
        attempts)
    (hFailures :
      part.countP (Exchange.counts .downloadFailure) =
        failures) :
    turn.Adds attempts failures := by
  subst hPart
  constructor
  · rw [← hDownloads, countP_filter_isAttempt]
    exact Exchange.isAttempt_of_isDownload
  · rw [← hAttempts, countP_filter_isAttempt]
    exact Exchange.isAttempt_of_counts (by simp)
  · rw [← hFailures, countP_filter_isAttempt]
    exact Exchange.isAttempt_of_counts (by simp)

end Turn

------------------------------------------------------------
-- Talk of an Attempt
------------------------------------------------------------

namespace Updater

variable
  {u next : Updater}
  {now : Instant}
  {talk : List Exchange}

/- A talk that asks about no attempt has no part about them. -/
theorem filter_isAttempt_eq_nil
    {α : Type}
    {d : Talk α}
    {result : Option α}
    (hUnfolds : d.Unfolds talk result)
    (hApart : d.Asks (fun question =>
      question.isAttempt = false)) :
    talk.filter Exchange.isAttempt = [] := by
  rw [List.filter_eq_nil_iff]
  intro exchange hMem
  rw [Bool.not_eq_true]
  exact hUnfolds.asks hApart exchange hMem

/- A failed attempt is counted once. -/
theorem unfolds_attemptFailed
    (hUnfolds : u.attemptFailed.Unfolds talk (some next)) :
    talk.filter Exchange.isAttempt =
        [⟨.count .downloadFailure, ()⟩] ∧
      next = u.attemptLost := by
  have hYields := hUnfolds.yields attemptFailed_yields
  refine ⟨?_, hYields⟩
  unfold attemptFailed at hUnfolds
  simp only [Talk.count, Dialogue.ask_bind, Dialogue.done_bind,
    Dialogue.unfolds_ask, Dialogue.unfolds_bind] at hUnfolds
  rcases hUnfolds with
    ⟨_, _, rfl, error, first, second, rfl, hError, hNext⟩
  have hFirst := filter_isAttempt_eq_nil hError
    (Talk.asks_carryOut (Procedure.asks_transferError rfl))
  have hSecond : second = [] := by
    split at hNext <;> simp at hNext <;> exact hNext.1
  rw [hSecond, List.append_nil, List.filter_cons, hFirst]
  rfl

/-
  Beginning an attempt counts it and sends the command; then the
  attempt is pending, or it has failed.
-/
theorem unfolds_beginAttempt
    (hUnfolds :
      (u.beginAttempt now).Unfolds talk (some next)) :
    ∃ reply,
      (reply.outcome.isOk = true ∧
        talk.filter Exchange.isAttempt =
          [⟨.count .downloadAttempt, ()⟩,
            ⟨.command (.download u.checkpoint.path.file),
              reply⟩] ∧
        next = { u with time.pendingSince := some now }) ∨
      (reply.outcome.isOk = false ∧
        talk.filter Exchange.isAttempt =
          [⟨.count .downloadAttempt, ()⟩,
            ⟨.command (.download u.checkpoint.path.file),
              reply⟩,
            ⟨.count .downloadFailure, ()⟩] ∧
        next = u.attemptLost) := by
  unfold beginAttempt Procedure.startDownload at hUnfolds
  dsimp only at hUnfolds
  rw [Talk.carryOut_carryOut, if_pos (Command.fits_download _)]
    at hUnfolds
  simp only [Talk.clearCompletion, Talk.count,
    Dialogue.ask_bind, Dialogue.done_bind,
    Dialogue.unfolds_ask, Dialogue.unfolds_bind] at hUnfolds
  rcases hUnfolds with
    ⟨_, restored, _, rfl, hRestored, _, deleted, _, rfl,
      hDeleted, _, _, rfl, _, _, rfl, reply, rest, rfl, hEnd⟩
  have hRestored := filter_isAttempt_eq_nil hRestored
    (restoreData_asks rfl rfl rfl)
  have hDeleted := filter_isAttempt_eq_nil hDeleted
    (deleteStaleImage_asks rfl rfl)
  have hBefore :
      ∀ rest : List Exchange,
        (restored ++ (deleted ++
          ⟨.clearCompletion, ()⟩ ::
          ⟨.count .downloadAttempt, ()⟩ ::
          ⟨.command (.download u.checkpoint.path.file),
            reply⟩ :: rest)).filter Exchange.isAttempt =
          ⟨.count .downloadAttempt, ()⟩ ::
          ⟨.command (.download u.checkpoint.path.file),
            reply⟩ :: rest.filter Exchange.isAttempt := by
    intro rest
    rw [List.filter_append, List.filter_append, hRestored,
      hDeleted]
    rfl
  refine ⟨reply, ?_⟩
  cases hOk : reply.outcome.isOk with
  | true =>
      simp [hOk] at hEnd
      left
      refine ⟨rfl, ?_, hEnd.2⟩
      rw [hBefore, hEnd.1]
      rfl
  | false =>
      simp [hOk] at hEnd
      have hFailed := unfolds_attemptFailed hEnd
      right
      refine ⟨rfl, ?_, hFailed.2⟩
      rw [hBefore, hFailed.1]

/-
  Looking after a pending attempt takes its completion, if there
  is one; then it is accepted, it has failed, or it goes on.
-/
theorem unfolds_downloadReady
    {since : Instant}
    (hPending : u.time.pendingSince = some since)
    (hUnfolds :
      (u.downloadReady now).Unfolds talk (some next)) :
    ∃ completion : Option Completion,
      (∃ done ∈ completion,
        accepts u.checkpoint.path done = true ∧
          talk.filter Exchange.isAttempt =
            [⟨.takeCompletion, completion⟩] ∧
          next = u.moveTo .installCellDisconnecting) ∨
      ((∀ done ∈ completion,
          accepts u.checkpoint.path done = false) ∧
        (completion = none →
          since.Elapsed u.policy.downloadTimeout now) ∧
        talk.filter Exchange.isAttempt =
          [⟨.takeCompletion, completion⟩,
            ⟨.count .downloadFailure, ()⟩] ∧
        next = u.attemptLost) ∨
      (completion = none ∧
        ¬ since.Elapsed u.policy.downloadTimeout now ∧
        talk.filter Exchange.isAttempt =
          [⟨.takeCompletion, completion⟩] ∧
        next = u) := by
  unfold downloadReady at hUnfolds
  rw [hPending] at hUnfolds
  simp only [Talk.takeCompletion, Dialogue.ask_bind,
    Dialogue.done_bind, Dialogue.unfolds_ask] at hUnfolds
  rcases hUnfolds with ⟨completion, rest, rfl, hEnd⟩
  refine ⟨completion, ?_⟩
  have hTaken :
      (⟨.takeCompletion, completion⟩ :: rest :
        List Exchange).filter Exchange.isAttempt =
        ⟨.takeCompletion, completion⟩ ::
          rest.filter Exchange.isAttempt :=
    rfl
  rw [hTaken]
  cases completion with
  | some done =>
      cases hAccepts : accepts u.checkpoint.path done with
      | true =>
          simp [hAccepts] at hEnd
          left
          exact ⟨done, rfl, hAccepts, by simp [hEnd.1], hEnd.2⟩
      | false =>
          simp [hAccepts] at hEnd
          have hFailed := unfolds_attemptFailed hEnd
          right; left
          refine ⟨?_, ?_, ?_, hFailed.2⟩
          · rintro other ⟨⟩
            exact hAccepts
          · intro hNone
            cases hNone
          · rw [hFailed.1]
  | none =>
      by_cases hLate :
          since.Elapsed u.policy.downloadTimeout now
      · simp [hLate] at hEnd
        have hFailed := unfolds_attemptFailed hEnd
        right; left
        refine ⟨?_, fun _ => hLate, ?_, hFailed.2⟩
        · intro done hMem
          cases hMem
        · rw [hFailed.1]
      · simp [hLate] at hEnd
        right; right
        exact ⟨rfl, hLate, by simp [hEnd.1], hEnd.2⟩

end Updater

------------------------------------------------------------
-- Turns of an Attempt
------------------------------------------------------------

namespace Turn

/-
  How the attempts of a run go on in a turn that works on the
  download, and what the updater makes of it.
-/
inductive Tries
    (turn : Turn)
    (now : Instant)
    (a : Attempts) : Attempts → Prop where
| begins
    (hNone : a.pending = none)
    (hAdds : turn.Adds 1 0)
    (hAfter :
      turn.after =
        { turn.before.entering now with
          time.pendingSince := some now }) :
    Tries turn now a { a with pending := some now }
| fails
    (hAdds : turn.Adds (if a.pending.isSome then 0 else 1) 1)
    (hAfter :
      turn.after = (turn.before.entering now).attemptLost) :
    Tries turn now a a.lose
| accepts
    (hSome : a.pending.isSome = true)
    (hAdds : turn.Adds 0 0)
    (hAfter :
      turn.after =
        (turn.before.entering now).moveTo
          .installCellDisconnecting) :
    Tries turn now a
      { a with
        pending := none
        accepted := true }
| waits
    (hSome : a.pending.isSome = true)
    (hAdds : turn.Adds 0 0)
    (hAfter : turn.after = turn.before.entering now) :
    Tries turn now a a

/- In the turn, nothing is about an attempt. -/
def Apart
    (turn : Turn) : Prop :=
  turn.talk.filter Exchange.isAttempt = []

variable
  {turn : Turn}
  {now : Instant}
  {rest : List Exchange}
  {a : Attempts}

theorem Apart.adds
    (hApart : turn.Apart) :
    turn.Adds 0 0 :=
  adds_of_filter hApart rfl rfl rfl

theorem Apart.watch
    (hApart : turn.Apart) :
    a.watch turn.before turn.talk = a := by
  unfold Attempts.watch
  rw [Attempts.foldl_see, hApart]
  rfl

/- Without work, nothing is about an attempt. -/
theorem Rests.apart
    (hRests : turn.Rests) :
    turn.Apart := by
  unfold Apart
  rw [List.filter_eq_nil_iff]
  rintro ⟨question, answer⟩ hMem
  have hQuiet := hRests.quiet _ hMem
  unfold Exchange.isAttempt Question.isAttempt
  split <;>
    simp_all [Updater.quietQuestions, Updater.requestQuestions]

/- On another stage, nothing is about an attempt. -/
theorem isAttempt_of_mayAsk
    {u : Updater}
    {entered : Bool}
    {stage : Stage}
    {question : Question}
    (hStage : stage ≠ .downloadReady)
    (hAsk : u.MayAsk entered stage question) :
    question.isAttempt = false := by
  unfold Question.isAttempt
  split
  case h_5 =>
    rfl
  all_goals
    exfalso
    cases stage <;>
      simp [Updater.MayAsk, Updater.storing] at hAsk hStage

theorem Works.filter
    (hWorks : turn.Works now rest) :
    turn.talk.filter Exchange.isAttempt =
      rest.filter Exchange.isAttempt := by
  rw [hWorks.talk]
  rfl

theorem Works.apart
    (hWorks : turn.Works now rest)
    (hStage : turn.before.stage ≠ .downloadReady) :
    turn.Apart := by
  unfold Apart
  rw [hWorks.filter]
  apply Updater.filter_isAttempt_eq_nil hWorks.work
  apply Updater.work_asks.mono
  intro question hAsk
  exact isAttempt_of_mayAsk hStage hAsk

/- The onlooker sees the part of the talk about attempts. -/
theorem Works.watch
    (hWorks : turn.Works now rest)
    (a : Attempts) :
    a.watch turn.before turn.talk =
      (rest.filter Exchange.isAttempt).foldl
        (Attempts.see turn.before (some now)) a := by
  have hClock :
      turn.talk.findSome? Exchange.clock? = some now := by
    rw [hWorks.talk]
    rfl
  unfold Attempts.watch
  rw [hClock, Attempts.foldl_see, hWorks.filter]

/- On the download, the work is that of its stage. -/
theorem Works.downloads
    (hWorks : turn.Works now rest)
    (hStage : turn.before.stage = .downloadReady) :
    ((turn.before.entering now).downloadReady now).Unfolds rest
      (some turn.after) := by
  have hSame : (turn.before.entering now).stage = _ := hStage
  have hWork := hWorks.work
  unfold Updater.work at hWork
  rw [hSame] at hWork
  exact hWork

/- An attempt that begins is pending, or has failed. -/
theorem Works.tries_none
    (hWorks : turn.Works now rest)
    (hStage : turn.before.stage = .downloadReady)
    (hPending : turn.before.time.pendingSince = none)
    (hNone : a.pending = none) :
    turn.Tries now a (a.watch turn.before turn.talk) := by
  have hReady :
      (turn.before.entering now).time.pendingSince = none :=
    hPending
  have hBegun := hWorks.downloads hStage
  unfold Updater.downloadReady at hBegun
  rw [hReady] at hBegun
  rw [hWorks.watch]
  rcases Updater.unfolds_beginAttempt hBegun with
    ⟨reply, ⟨hOk, hTalk, hAfter⟩ | ⟨hOk, hTalk, hAfter⟩⟩
  · have hAdds : turn.Adds 1 0 :=
      adds_of_filter (hWorks.filter.trans hTalk) rfl rfl rfl
    rw [hTalk]
    simpa [Attempts.see, hOk] using
      Tries.begins hNone hAdds hAfter
  · have hAdds :
        turn.Adds (if a.pending.isSome then 0 else 1) 1 := by
      rw [hNone]
      exact
        adds_of_filter (hWorks.filter.trans hTalk) rfl rfl rfl
    rw [hTalk]
    simpa [Attempts.see, hOk] using
      Tries.fails hAdds hAfter

/- A pending attempt is accepted, has failed, or goes on. -/
theorem Works.tries_some
    {since : Instant}
    (hWorks : turn.Works now rest)
    (hStage : turn.before.stage = .downloadReady)
    (hPending : turn.before.time.pendingSince = some since)
    (hSome : a.pending = some since) :
    turn.Tries now a (a.watch turn.before turn.talk) := by
  have hReady :
      (turn.before.entering now).time.pendingSince =
        some since :=
    hPending
  have hTended := hWorks.downloads hStage
  rw [hWorks.watch]
  rcases Updater.unfolds_downloadReady hReady hTended with
    ⟨completion, hAccepted | hLost | hWaits⟩
  · rcases hAccepted with
      ⟨done, hMem, hAccepts, hTalk, hAfter⟩
    have hAdds : turn.Adds 0 0 :=
      adds_of_filter (hWorks.filter.trans hTalk) rfl rfl rfl
    change Updater.accepts turn.before.checkpoint.path _ = _
      at hAccepts
    rw [hTalk, Option.mem_def.mp hMem]
    simpa [Attempts.see, hAccepts] using
      Tries.accepts (by rw [hSome]; rfl) hAdds hAfter
  · rcases hLost with ⟨hOther, hLate, hTalk, hAfter⟩
    have hAdds :
        turn.Adds (if a.pending.isSome then 0 else 1) 1 := by
      rw [hSome]
      exact
        adds_of_filter (hWorks.filter.trans hTalk) rfl rfl rfl
    have hSeen :
        a.see turn.before (some now)
            ⟨.takeCompletion, completion⟩ = a.lose := by
      cases completion with
      | some done =>
          exact if_neg (Bool.eq_false_iff.mp (hOther done rfl))
      | none =>
          exact
            if_pos ⟨since, hSome, now, rfl, hLate rfl⟩
    rw [hTalk, List.foldl_cons, hSeen]
    exact Tries.fails hAdds hAfter
  · rcases hWaits with ⟨rfl, hEarly, hTalk, hAfter⟩
    have hAdds : turn.Adds 0 0 :=
      adds_of_filter (hWorks.filter.trans hTalk) rfl rfl rfl
    have hSeen :
        a.see turn.before (some now)
            ⟨.takeCompletion, none⟩ = a := by
      apply if_neg
      rintro ⟨since', hMem, now', hNow, hLate⟩
      rw [hSome] at hMem
      cases hMem
      cases hNow
      exact hEarly hLate
    rw [hTalk, List.foldl_cons, hSeen]
    exact Tries.waits (by rw [hSome]; rfl) hAdds hAfter

/-
  While an attempt is pending, its completion is taken, if there
  is one, and the onlooker sees no more of the attempt than that.
-/
theorem Works.takes_completion
    {since : Instant}
    (hWorks : turn.Works now rest)
    (hStage : turn.before.stage = .downloadReady)
    (hPending : turn.before.time.pendingSince = some since)
    (a : Attempts) :
    ∃ completion : Option Completion,
      (⟨.takeCompletion, completion⟩ : Exchange) ∈
          turn.talk ∧
        a.watch turn.before turn.talk =
          a.see turn.before (some now)
            ⟨.takeCompletion, completion⟩ := by
  have hReady :
      (turn.before.entering now).time.pendingSince =
        some since :=
    hPending
  have hTended := hWorks.downloads hStage
  rw [hWorks.watch]
  rcases Updater.unfolds_downloadReady hReady hTended with
    ⟨completion, hEnd⟩
  have hTalk :
      rest.filter Exchange.isAttempt =
          [⟨.takeCompletion, completion⟩] ∨
        rest.filter Exchange.isAttempt =
          [⟨.takeCompletion, completion⟩,
            ⟨.count .downloadFailure, ()⟩] := by
    rcases hEnd with
      ⟨_, _, _, hTalk, _⟩ | ⟨_, _, hTalk, _⟩ |
        ⟨_, _, hTalk, _⟩
    · exact .inl hTalk
    · exact .inr hTalk
    · exact .inl hTalk
  refine ⟨completion, ?_, ?_⟩
  · have hMem :
        (⟨.takeCompletion, completion⟩ : Exchange) ∈
          turn.talk.filter Exchange.isAttempt := by
      rw [hWorks.filter]
      rcases hTalk with hTalk | hTalk <;> simp [hTalk]
    exact (List.mem_filter.mp hMem).1
  · rcases hTalk with hTalk | hTalk <;> rw [hTalk] <;> rfl

/- Work on the download, as the onlooker sees it. -/
theorem Works.tries
    (hWorks : turn.Works now rest)
    (hStage : turn.before.stage = .downloadReady)
    (hPending : turn.before.time.pendingSince = a.pending) :
    turn.Tries now a (a.watch turn.before turn.talk) := by
  cases hSince : a.pending with
  | none =>
      exact
        hWorks.tries_none hStage (hPending.trans hSince) hSince
  | some since =>
      exact
        hWorks.tries_some hStage (hPending.trans hSince) hSince

end Turn

end Fota
