import Fota.Proofs.Update.Frames
import Fota.Proofs.Update.Replays

/-
  This file shows what a successful run rests on: the modem was
  alive after the install and named a version other than the
  replaced one, which is the wanted one or comes with a full
  progress. The replaced version ends the wait as a failure, and
  without a version only the timeout does.

  Key definitions include:
    * `Reply.version?`
    * `Update.Course.Honest`
    * `Turn.heard?`
    * `Turn.FindsComplete`
    * `Turn.Earns`

  The main statements are `Life.Run.honest`,
  `Turn.Works.judged` and `Life.success_earned`.
-/

namespace Fota

open Update
  (Answer Course Exchange Question Script Setting Talk)

------------------------------------------------------------
-- Versions in Replies
------------------------------------------------------------

/- The version that an accepted reply names. -/
def Reply.version?
    (reply : Reply) : Option UInt32 :=
  if reply.outcome.isOk then
    (reply.lines.map Version.key).find? (· ≠ 0)
  else
    none

/- The key of a version that is named is not zero. -/
theorem Reply.version_ne_zero
    {reply : Reply}
    {version : UInt32}
    (hVersion : reply.version? = some version) :
    version ≠ 0 := by
  unfold Reply.version? at hVersion
  split at hVersion
  · simpa using List.find?_some hVersion
  · cases hVersion

/- Whether the exchange is a sign of life of the modem. -/
def Update.Exchange.isLife : Exchange → Bool
| ⟨.command .attention, reply⟩ => reply.outcome.isOk
| _ => false

/- The version that the modem names in the exchange, if any. -/
def Update.Exchange.version? : Exchange → Option UInt32
| ⟨.command .identify, reply⟩ => reply.version?
| _ => none

/- Reading the version is one command. -/
theorem Update.Talk.carryOut_readVersion :
    Talk.carryOut Procedure.readVersion =
      .ask (.command .identify)
        (fun reply => .done (reply.version?.getD 0)) := by
  have hFits : Command.identify.Fits := by decide
  unfold Talk.carryOut Procedure.readVersion Procedure.send
    Reply.version?
  rw [if_pos hFits]
  simp [Dialogue.query, Talk.command]
  funext reply
  split <;> simp

------------------------------------------------------------
-- Honest Courses
------------------------------------------------------------

namespace Update.Course

variable
  {s : Setting}
  {c c' : Course}
  {question : Question}
  {answer : Answer question}

/-
  Each answer of a boot told the truth about the mailbox and the
  slot at the moment at which it was given.
-/
def Honest
    (c : Course) : Prop :=
  ∀ before question answer,
    before ++ [.asked question answer] <+: c.past →
      ({ c with past := before } : Course).Truthful question
        answer

theorem honest_fresh
    (slot : Option (List UInt8))
    (safeMode : Bool) :
    (fresh slot safeMode).Honest := by
  intro before question answer hPrefix
  simp [fresh] at hPrefix

/- Notices do not change what was answered. -/
theorem Honest.hear
    (hHonest : c.Honest)
    (lines : List String) :
    (c.hear lines).Honest := by
  intro before question answer hPrefix
  apply hHonest before question answer
  induction lines using List.reverseRecOn with
  | nil =>
      simpa [Course.hear] using hPrefix
  | append_singleton lines line ih =>
      apply ih
      simp only [Course.hear, List.map_append, List.map_cons,
        List.map_nil] at hPrefix ⊢
      rw [← List.append_assoc, List.prefix_concat_iff]
        at hPrefix
      rcases hPrefix with hEq | hPrefix
      · rw [List.append_singleton_inj] at hEq
        cases hEq.2
      · exact hPrefix

/- A truthful answer keeps a course honest. -/
theorem Honest.goes
    (hHonest : c.Honest)
    (hGoes : goes s c question answer c') :
    c'.Honest := by
  rcases hGoes with ⟨lines, hTruthful, _, rfl⟩
  intro before other answer' hPrefix
  change
    before ++ [.asked other answer'] <+:
      (c.hear lines).past ++ [.asked question answer]
    at hPrefix
  rw [List.prefix_concat_iff] at hPrefix
  rcases hPrefix with hEq | hPrefix
  · rw [List.append_singleton_inj] at hEq
    rcases hEq with ⟨rfl, hAsked⟩
    cases hAsked
    exact hTruthful
  · exact hHonest.hear lines before other answer' hPrefix

end Update.Course

/- In each boot, all answers were truthful. -/
theorem Life.Run.honest
    {s : Setting}
    {turns : List Turn}
    {l : Life}
    (hRun : l.Run s turns) :
    ∀ u ∈ l.updater, l.course.Honest := by
  have hAlways :
      ∀ (d : Talk Updater) c, c.Honest →
        d.Always (Course.goes s) (fun _ => True)
          (fun _ c' => c'.Honest) c := by
    intro d c hHonest
    apply (Dialogue.always_of_asks (Dialogue.asks_true d)
      (Dialogue.yields_true d)
      (fun _ _ _ _ _ hHonest hGoes => hHonest.goes hGoes)
      hHonest).mono
    · intro c _
      trivial
    · intro u c' hEnd
      exact hEnd.2
  exact
    Run.invariant (fun _ c => c.Honest)
      (fun slot safeMode _ _ =>
        hAlways _ _ (Course.honest_fresh slot safeMode))
      (fun _ _ _ hHonest => hAlways _ _ hHonest) hRun

------------------------------------------------------------
-- Looks at the Modem
------------------------------------------------------------

namespace Updater

variable
  {u next : Updater}
  {now : Instant}
  {talk : List Exchange}

/- A look at the modem is a probe and, if it is alive, a name. -/
theorem unfolds_probeVersion
    {version : UInt32}
    (hUnfolds : probeVersion.Unfolds talk (some version)) :
    ∃ probe,
      (probe.outcome.isOk = false ∧
        talk = [⟨.command .attention, probe⟩] ∧
        version = 0) ∨
      ∃ reply,
        probe.outcome.isOk = true ∧
          talk =
            [⟨.command .attention, probe⟩,
              ⟨.command .identify, reply⟩] ∧
          version = reply.version?.getD 0 := by
  unfold probeVersion Procedure.probe at hUnfolds
  rw [Talk.carryOut_carryOut, if_pos (by decide),
    Talk.carryOut_readVersion] at hUnfolds
  simp only [Dialogue.pure_eq_done, Dialogue.ask_bind,
    Dialogue.done_bind, Dialogue.unfolds_ask] at hUnfolds
  rcases hUnfolds with ⟨probe, rest, rfl, hRest⟩
  refine ⟨probe, ?_⟩
  cases hAlive : probe.outcome.isOk with
  | false =>
      simp [hAlive] at hRest
      simp [hRest]
  | true =>
      simp [hAlive] at hRest
      rcases hRest with ⟨reply, rfl, rfl⟩
      right
      exact ⟨reply, rfl, rfl, rfl⟩

/- A look whether the install has ended judges what it finds. -/
theorem unfolds_pollInstall
    (hUnfolds : (u.pollInstall now).Unfolds talk (some next)) :
    ∃ progress version rest,
      talk =
          ⟨.count .installPoll, ()⟩ :: ⟨.progress, progress⟩ ::
            rest ∧
        probeVersion.Unfolds rest (some version) ∧
        next = u.judged now version (isComplete progress) := by
  unfold pollInstall at hUnfolds
  simp only [Talk.count, Talk.progress, Dialogue.ask_bind,
    Dialogue.done_bind, Dialogue.unfolds_ask,
    Dialogue.unfolds_bind] at hUnfolds
  rcases hUnfolds with
    ⟨_, _, rfl, progress, _, rfl, version, first, second, rfl,
      hProbed, hJudged⟩
  have hEnd :
      second = [] ∧
        next = u.judged now version (isComplete progress) := by
    unfold judged waits
    cases hVerdict :
        judge version (isComplete progress) u.checkpoint with
    | unchanged =>
        simpa [hVerdict, withVersion] using hJudged
    | installed =>
        simpa [hVerdict, withVersion] using hJudged
    | undecided =>
        simp [hVerdict] at hJudged
        by_cases hLate :
            u.TimedOut now u.policy.installFinishTimeout
        · simpa [hLate] using hJudged.1 hLate
        · simpa [hLate] using hJudged.2 hLate
  rcases hEnd with ⟨rfl, hNext⟩
  rw [List.append_nil]
  exact ⟨progress, version, first, rfl, hProbed, hNext⟩

/- An install has gone well with a new and expected version. -/
theorem judge_eq_installed_iff
    {version : UInt32}
    {complete : Bool}
    {c : Checkpoint} :
    judge version complete c = .installed ↔
      version ≠ 0 ∧ version ≠ c.replaced ∧
        (version = c.wanted ∨ complete = true) := by
  unfold judge
  split_ifs <;> simp_all

/- An install has failed with the version that it replaces. -/
theorem judge_eq_unchanged_iff
    {version : UInt32}
    {complete : Bool}
    {c : Checkpoint} :
    judge version complete c = .unchanged ↔
      version ≠ 0 ∧ version = c.replaced := by
  unfold judge
  split_ifs <;> simp_all

/- An install that has failed ends the wait. -/
theorem judged_unchanged
    {version : UInt32}
    {complete : Bool}
    (hVerdict :
      judge version complete u.checkpoint = .unchanged) :
    u.judged now version complete =
      (u.withVersion version).fail .sameVersion
        .finishedPowerOff := by
  unfold judged
  rw [hVerdict]

/- Without a version, the install is not judged. -/
theorem judged_zero
    {complete : Bool} :
    u.judged now 0 complete =
      u.waits now u.policy.installFinishTimeout
        (u.fail .installTimeout .finishedPowerOff)
        (u.cool now u.policy.installProbePoll) := by
  rfl

/- Success that is new comes of an install that has gone well. -/
theorem judged_of_success
    {version : UInt32}
    {complete : Bool}
    (hBefore : u.status ≠ .success)
    (hAfter : (u.judged now version complete).status =
      .success) :
    judge version complete u.checkpoint = .installed ∧
      (u.judged now version complete).checkpoint.installed =
        version := by
  unfold judged at hAfter ⊢
  cases hVerdict : judge version complete u.checkpoint with
  | unchanged =>
      rw [hVerdict] at hAfter
      cases hAfter
  | installed =>
      exact ⟨rfl, rfl⟩
  | undecided =>
      rw [hVerdict] at hAfter
      dsimp only [waits] at hAfter
      split at hAfter
      · cases hAfter
      · exact absurd hAfter hBefore

/- A stage has lasted since the first tick that worked on it. -/
theorem timedOut_entering_iff
    {first : Instant}
    {timeout : UInt32}
    (hEntered : u.time.enteredAt = some first) :
    (u.entering now).TimedOut now timeout ↔
      first.Elapsed timeout now := by
  unfold TimedOut Instant.Elapsed StageTime.elapsed entering
    StageTime.enter
  rw [hEntered]
  rfl

/- A progress is complete when it is shown and full. -/
theorem isComplete_iff
    {progress : Option UInt8} :
    isComplete progress = true ↔
      ∃ value, progress = some value ∧
        progressComplete ≤ value := by
  cases progress <;> simp [isComplete]

end Updater

------------------------------------------------------------
-- Judged Installs
------------------------------------------------------------

namespace Turn

/- The version that the modem named in the turn, if it lived. -/
def heard?
    (turn : Turn) : Option UInt32 :=
  if turn.talk.any Exchange.isLife then
    turn.talk.findSome? Exchange.version?
  else
    none

/- During a call, the mailbox was found to hold full progress. -/
def FindsComplete
    (l l' : Life) : Prop :=
  ∃ (before : List Update.Happening) (value : UInt8),
    l.course.past <+: before ∧
      before ++ [.asked .progress (some value)] <+:
        l'.course.past ∧
      ({ l'.course with past := before } :
        Course).mailbox.progress = some value ∧
      Updater.progressComplete ≤ value

/- The turn is a tick that earns success by a version. -/
structure Earns
    (turn : Turn)
    (l l' : Life)
    (version : UInt32) : Prop where
  tick : turn.call = .tick
  waited : turn.before.stage = .installWaiting
  heard : turn.heard? = some version
  named : version ≠ 0
  replaced : version ≠ turn.before.checkpoint.replaced
  arrived :
    version = turn.before.checkpoint.wanted ∨
      FindsComplete l l'
  installed : turn.after.checkpoint.installed = version

variable
  {s : Setting}
  {turns : List Turn}
  {turn : Turn}
  {l l' : Life}
  {now : Instant}
  {rest : List Exchange}
  {version : UInt32}

/- A quiet exchange is no sign of life. -/
theorem heard?_of_quiet
    (hQuiet : ∀ exchange ∈ turn.talk,
      exchange.question ∈ Updater.quietQuestions) :
    turn.heard? = none := by
  have hNone : turn.talk.any Exchange.isLife = false := by
    rw [List.any_eq_false]
    rintro ⟨question, answer⟩ hMem
    have hAsk := hQuiet _ hMem
    cases question with
    | command command =>
        simp [Updater.quietQuestions, Updater.requestQuestions]
          at hAsk
    | _ =>
        exact Bool.false_ne_true
  unfold heard?
  rw [hNone]
  rfl

/- The first tick of the wait only begins a pause. -/
theorem Works.pauses
    (hWorks : turn.Works now rest)
    (hStage : turn.before.stage = .installWaiting)
    (hFirst : turn.before.time.enteredAt = none) :
    rest = [] ∧
      turn.after =
        (turn.before.entering now).cool now
          turn.before.policy.installProbePoll := by
  have hSame : (turn.before.entering now).stage = _ := hStage
  have hWork := hWorks.work
  unfold Updater.work at hWork
  rw [hSame, hFirst] at hWork
  simp [Updater.installWaiting] at hWork
  exact hWork

/- In the first tick of the wait, no version is heard. -/
theorem Works.pauses_deaf
    (hWorks : turn.Works now rest)
    (hStage : turn.before.stage = .installWaiting)
    (hFirst : turn.before.time.enteredAt = none) :
    turn.heard? = none := by
  apply heard?_of_quiet
  rw [hWorks.talk, (hWorks.pauses hStage hFirst).1]
  simp [Updater.quietQuestions, Updater.requestQuestions]

/- Any later tick judges the version that it hears, if any. -/
theorem Works.judged
    (hWorks : turn.Works now rest)
    (hStage : turn.before.stage = .installWaiting)
    (hLater : turn.before.time.enteredAt ≠ none) :
    ∃ progress,
      ⟨.progress, progress⟩ ∈ turn.talk ∧
        turn.after =
          (turn.before.entering now).judged now
            (turn.heard?.getD 0)
            (Updater.isComplete progress) := by
  have hSame : (turn.before.entering now).stage = _ := hStage
  have hWork := hWorks.work
  unfold Updater.work at hWork
  rw [hSame, Option.isNone_eq_false_iff.mpr
    (Option.isSome_iff_ne_none.mpr hLater)] at hWork
  rcases Updater.unfolds_pollInstall hWork with
    ⟨progress, version, first, hRest, hProbed, hAfter⟩
  have hTalk := hWorks.talk
  rw [hRest] at hTalk
  refine ⟨progress, by simp [hTalk], ?_⟩
  rw [hAfter]
  congr 1
  rcases Updater.unfolds_probeVersion hProbed with
    ⟨probe, ⟨hSilent, rfl, rfl⟩ | ⟨reply, hAlive, rfl, rfl⟩⟩
  · simp [heard?, hTalk, Exchange.isLife, hSilent]
  · have hLife : turn.talk.any Exchange.isLife = true := by
      simp [hTalk, Exchange.isLife, hAlive]
    have hNamed :
        turn.talk.findSome? Exchange.version? =
          reply.version? := by
      rw [hTalk]
      simp only [List.findSome?_cons, Exchange.version?]
      cases reply.version? <;> rfl
    unfold heard?
    rw [if_pos hLife, hNamed]

/- A version that is heard is not zero. -/
theorem ne_zero_of_heard
    (hHeard : turn.heard? = some version) :
    version ≠ 0 := by
  unfold heard? at hHeard
  split at hHeard
  · rcases List.exists_of_findSome?_eq_some hHeard with
      ⟨⟨question, answer⟩, _, hVersion⟩
    unfold Exchange.version? at hVersion
    split at hVersion
    · exact Reply.version_ne_zero hVersion
    · cases hVersion
  · cases hHeard

/- A version that is judged was heard. -/
theorem heard?_of_ne_zero
    (hNonzero : turn.heard?.getD 0 ≠ 0) :
    turn.heard? = some (turn.heard?.getD 0) := by
  cases hHeard : turn.heard? with
  | none =>
      rw [hHeard] at hNonzero
      exact absurd rfl hNonzero
  | some version =>
      rfl

/- Where a full progress was looked at, the mailbox held it. -/
theorem Takes.findsComplete
    {value : UInt8}
    (hTakes : turn.Takes s l l')
    (hRun : l.Run s turns)
    (hLooked : ⟨.progress, some value⟩ ∈ turn.talk)
    (hComplete : Updater.progressComplete ≤ value) :
    FindsComplete l l' := by
  rcases hTakes.exists_added with ⟨added, hPast, hTalk⟩
  have hHonest : l'.course.Honest := by
    rcases hRun.takes hTakes with ⟨turns', hRun'⟩
    exact hRun'.honest _ hTakes.after
  rw [hTalk, List.mem_filterMap] at hLooked
  rcases hLooked with ⟨happening, hMem, hExchange⟩
  rw [Update.Happening.eq_asked_of_exchange hExchange] at hMem
  rcases List.append_of_mem hMem with ⟨front, back, rfl⟩
  have hPrefix :
      l.course.past ++ front ++
          [.asked .progress (some value)] <+:
        l'.course.past := by
    rw [hPast]
    exact ⟨back, by simp⟩
  have hTruthful := hHonest _ _ _ hPrefix
  exact
    ⟨l.course.past ++ front, value, List.prefix_append _ _,
      hPrefix, hTruthful.symm, hComplete⟩

------------------------------------------------------------
-- Verdicts
------------------------------------------------------------

/- Only an install that is judged to be done earns success. -/
theorem Takes.earns
    (hTakes : turn.Takes s l l')
    (hRun : l.Run s turns)
    (hBefore : turn.before.status ≠ .success)
    (hAfter : turn.after.status = .success) :
    ∃ version, turn.Earns l l' version := by
  rcases works_or_rests hTakes.unfolds with
    ⟨now, rest, hWorks⟩ | hRests
  · by_cases hStage : turn.before.stage = .installWaiting
    · by_cases hFirst : turn.before.time.enteredAt = none
      · rw [(hWorks.pauses hStage hFirst).2] at hAfter
        exact absurd hAfter hBefore
      · rcases hWorks.judged hStage hFirst with
          ⟨progress, hLooked, hJudged⟩
        have hEntering :
            (turn.before.entering now).status ≠ .success :=
          hBefore
        have hInstalled := hJudged ▸ hAfter
        have hEarned :=
          Updater.judged_of_success hEntering hInstalled
        rw [← hJudged, Updater.judge_eq_installed_iff]
          at hEarned
        rcases hEarned with
          ⟨⟨hNonzero, hReplaced, hArrived⟩, hVersion⟩
        refine
          ⟨_, hWorks.tick, hStage, heard?_of_ne_zero hNonzero,
            hNonzero, hReplaced, ?_, hVersion⟩
        rcases hArrived with hWanted | hComplete
        · exact Or.inl hWanted
        · right
          rcases Updater.isComplete_iff.mp hComplete with
            ⟨value, rfl, hFull⟩
          exact hTakes.findsComplete hRun hLooked hFull
    · -- No other stage may end in success.
      exact absurd (hWorks.keeps.status hStage hAfter) hBefore
  · rw [hRests.spared.status] at hAfter
    exact absurd hAfter hBefore

/- The replaced version ends the wait, whatever the progress. -/
theorem Takes.sameVersion
    (hTakes : turn.Takes s l l')
    (hStage : turn.before.stage = .installWaiting)
    (hHeard :
      turn.heard? = some turn.before.checkpoint.replaced) :
    turn.after.status = .failed .sameVersion := by
  rcases works_or_rests hTakes.unfolds with
    ⟨now, rest, hWorks⟩ | hRests
  · by_cases hFirst : turn.before.time.enteredAt = none
    · rw [hWorks.pauses_deaf hStage hFirst] at hHeard
      cases hHeard
    · rcases hWorks.judged hStage hFirst with
        ⟨progress, _, hJudged⟩
      have hVerdict :
          Updater.judge turn.before.checkpoint.replaced
            (Updater.isComplete progress)
            (turn.before.entering now).checkpoint =
              .unchanged :=
        Updater.judge_eq_unchanged_iff.mpr
          ⟨ne_zero_of_heard hHeard, rfl⟩
      rw [hHeard, Option.getD_some,
        Updater.judged_unchanged hVerdict] at hJudged
      rw [hJudged]
      rfl
  · rw [heard?_of_quiet hRests.quiet] at hHeard
    cases hHeard

/- Without a version, only the timeout ends the wait. -/
theorem Takes.stillWaits
    (hTakes : turn.Takes s l l')
    (hRun : l.Run s turns)
    (hStage : turn.before.stage = .installWaiting)
    (hDeaf : turn.heard? = none)
    (hEarly : ∀ now ∈ turn.workedAt?,
      ∀ first ∈ firstWork? turns,
        ¬ first.Elapsed
          turn.before.policy.installFinishTimeout now) :
    turn.after.stage = .installWaiting ∧
      turn.after.status = turn.before.status := by
  rcases works_or_rests hTakes.unfolds with
    ⟨now, rest, hWorks⟩ | hRests
  · cases hEntered : turn.before.time.enteredAt with
    | none =>
        rw [(hWorks.pauses hStage hEntered).2]
        exact ⟨hStage, rfl⟩
    | some first =>
        have hFirst : firstWork? turns = some first := by
          rw [← hRun.enteredAt _ hTakes.before (by
            rw [hStage]
            simp)]
          exact hEntered
        have hLater : turn.before.time.enteredAt ≠ none := by
          rw [hEntered]
          simp
        have hSoon :
            ¬ (turn.before.entering now).TimedOut now
              (turn.before.entering
                now).policy.installFinishTimeout := by
          rw [Updater.timedOut_entering_iff hEntered]
          exact hEarly now hWorks.worked first hFirst
        rcases hWorks.judged hStage hLater with
          ⟨progress, _, hJudged⟩
        rw [hJudged, hDeaf, Option.getD_none,
          Updater.judged_zero, Updater.waits_early hSoon]
        exact ⟨hStage, rfl⟩
  · have hAlike := hRests.alike (by
      intro hBegins
      rw [hBegins.1] at hStage
      cases hStage)
    rw [hAlike.stage]
    exact ⟨hStage, hAlike.status⟩

end Turn

------------------------------------------------------------
-- Restored Success
------------------------------------------------------------

namespace Life

variable
  {s : Setting}
  {l l' : Life}

/- A start that ends in success has restored it. -/
theorem Boots.restores
    (hBoots : l.Boots s l') :
    ∀ u ∈ l'.updater, u.status = .success →
      Updater.Holds l'.course.slot u.checkpoint := by
  rcases hBoots with
    ⟨slot, safeMode, policy, server, hSurvives, hLeads⟩
  have hKept :
      ∀ c question answer c',
        Updater.WakingAsks slot question → c.slot = slot →
        Course.goes s c question answer c' → c'.slot = slot := by
    rintro c question answer _ _ hSlot ⟨lines, _, _, rfl⟩
    exact hSlot
  have hEnd :=
    hLeads.of_always (Updater.always_init hKept rfl) rfl
  rw [hEnd.1]
  intro u hMem hSuccess
  rcases (hEnd.2 u hMem).1.2 with
    hInitial | ⟨stored, hHolds, hStored⟩
  · unfold Updater.status at hSuccess
    rw [hInitial] at hSuccess
    cases hSuccess
  · rcases hStored with
      ⟨_, hRest⟩ | ⟨_, hSame⟩ | ⟨_, _, hSame⟩
    · unfold Updater.status at hSuccess
      rw [hRest] at hSuccess
      cases hSuccess
    · rw [hSame]
      exact hHolds
    · rw [hSame]
      exact hHolds

/-
  Success is never claimed falsely. A start only restores it
  from the flash, and a call only earns it in a tick that waits
  for the end of an install, by a version. There, the replaced
  version is a failure whatever the progress; and as long as no
  version is heard, the wait goes on up to its timeout, counted
  from the first tick of the wait or, after a reset, from the
  first tick that has taken it up.
-/
theorem success_earned
    (s : Setting) :
    (∀ l l' : Life, l.Boots s l' → ∀ u ∈ l'.updater,
      u.status = .success →
        Updater.Holds l'.course.slot u.checkpoint) ∧
    ∀ turns (turn : Turn) (l l' : Life),
      l.Run s turns → turn.Takes s l l' →
        (turn.before.status ≠ .success →
          turn.after.status = .success →
            ∃ version, turn.Earns l l' version) ∧
        (turn.before.stage = .installWaiting →
          turn.heard? =
              some turn.before.checkpoint.replaced →
            turn.after.status = .failed .sameVersion) ∧
        (turn.before.stage = .installWaiting →
          turn.heard? = none →
          (∀ now ∈ turn.workedAt?,
            ∀ first ∈ Turn.firstWork? turns,
              ¬ first.Elapsed
                turn.before.policy.installFinishTimeout now) →
            turn.after.stage = .installWaiting ∧
              turn.after.status = turn.before.status) := by
  constructor
  · intro l l' hBoots
    exact hBoots.restores
  · intro turns turn l l' hRun hTakes
    exact
      ⟨hTakes.earns hRun, hTakes.sameVersion,
        hTakes.stillWaits hRun⟩

end Life

------------------------------------------------------------
-- Resumed Waits
------------------------------------------------------------

/-
  A modem reports full progress after each reset. It answers a
  probe as told, and says that it runs a version.
-/
def Update.Script.returning
    (alive : Outcome)
    (version : String) : Script where
  notices
  | _, .progress => ["+UUFWINSTALL: 100"]
  | _, _ => []
  answer c
  | .command .attention => (⟨alive, []⟩ : Reply)
  | .command .identify => (⟨.ok, [version]⟩ : Reply)
  | .now => .ofNat (20000 * c.past.length)
  | question => Script.smooth.answer c question

/- A wait that was taken up after a reset, after some ticks. -/
def Replay.resumed
    (alive : Outcome)
    (version : String)
    (count : Nat) : Replay :=
  let script := Script.returning alive version
  (start script .standard true (Life.smooth 14)).ticks script
    count

/-
  When the modem comes back with the wanted version, the success
  is earned and stored, and the next start restores it. With the
  version that was to be replaced, the same progress is a
  failure; and it does not end the wait for a silent modem.
-/
theorem Life.success_earned_on_resumed_waits :
    (∃ (turn : Turn) (version : UInt32),
      turn.after.status = .success ∧
        turn.Earns
          (Replay.resumed .ok "03.15,A00.01" 1).life
          (Replay.resumed .ok "03.15,A00.01" 2).life
          version) ∧
      (∃ u ∈ (Replay.start .smooth .standard true
          (Replay.resumed .ok "03.15,A00.01"
            3).life).life.updater,
        u.status = .success ∧
          Updater.Holds
            (Replay.start .smooth .standard true
              (Replay.resumed .ok "03.15,A00.01"
                3).life).life.course.slot
            u.checkpoint) ∧
      (∃ turn : Turn,
        turn.Takes .board
            (Replay.resumed .ok "02.06,A00.01" 1).life
            (Replay.resumed .ok "02.06,A00.01" 2).life ∧
          turn.after.status = .failed .sameVersion) ∧
      ∃ turn : Turn,
        turn.Takes .board
            (Replay.resumed .timeout "02.06,A00.01" 1).life
            (Replay.resumed .timeout "02.06,A00.01" 2).life ∧
          turn.after.stage = .installWaiting := by
  have hMoments :
      (∃ turn ∈ (Replay.resumed .ok "03.15,A00.01" 1).turn?
          (Script.returning .ok "03.15,A00.01") .tick,
        turn.before.status ≠ .success ∧
          turn.after.status = .success) ∧
        (∃ u ∈ (Replay.start .smooth .standard true
            (Replay.resumed .ok "03.15,A00.01"
              3).life).life.updater,
          u.status = .success) ∧
        (∃ turn ∈ (Replay.resumed .ok "02.06,A00.01" 1).turn?
            (Script.returning .ok "02.06,A00.01") .tick,
          turn.before.stage = .installWaiting ∧
            turn.heard? =
              some turn.before.checkpoint.replaced) ∧
        ∃ turn ∈ (Replay.resumed .timeout "02.06,A00.01"
            1).turn?
            (Script.returning .timeout "02.06,A00.01") .tick,
          turn.before.stage = .installWaiting ∧
            turn.heard? = none ∧
            ∀ now ∈ turn.workedAt?,
              ∀ first ∈ Turn.firstWork?
                  (Replay.resumed .timeout "02.06,A00.01"
                    1).turns,
                ¬ first.Elapsed
                  turn.before.policy.installFinishTimeout
                  now := by
    decide +kernel
  rcases hMoments with
    ⟨hEarned, hRestored, hReplaced, hSilent⟩
  have hSound :
      ∀ alive version,
        (Replay.resumed alive version 1).Sound := by
    intro alive version
    exact (Replay.sound_start _ _ _).ticks 1
  rcases success_earned .board with ⟨hBoots, hTurns⟩
  refine ⟨?_, ?_, ?_, ?_⟩
  · rcases hEarned with ⟨turn, hTurn, hBefore, hAfter⟩
    have hTakes := Replay.takes_call hTurn
    rcases (hTurns _ _ _ _ (hSound _ _) hTakes).1 hBefore hAfter
      with ⟨version, hEarns⟩
    exact ⟨turn, version, hAfter, hEarns⟩
  · rcases hRestored with ⟨u, hMem, hStatus⟩
    have hHolds :=
      hBoots _ _ (Replay.boots_start _ _ _) u hMem hStatus
    exact ⟨u, hMem, hStatus, hHolds⟩
  · rcases hReplaced with ⟨turn, hTurn, hStage, hHeard⟩
    have hTakes := Replay.takes_call hTurn
    have hAfter :=
      (hTurns _ _ _ _ (hSound _ _) hTakes).2.1 hStage hHeard
    exact ⟨turn, hTakes, hAfter⟩
  · rcases hSilent with ⟨turn, hTurn, hStage, hDeaf, hEarly⟩
    have hTakes := Replay.takes_call hTurn
    have hAfter :=
      (hTurns _ _ _ _ (hSound _ _) hTakes).2.2 hStage hDeaf
        hEarly
    exact ⟨turn, hTakes, hAfter.1⟩

end Fota
