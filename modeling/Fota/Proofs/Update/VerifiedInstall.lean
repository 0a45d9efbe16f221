import Fota.Proofs.Update.Consistency
import Fota.Proofs.Update.Verification

/-
  This file shows that an install is only ever started on an
  image whose download was verified in the same boot, and that
  each verified download is good for one install.

  Key definitions include:
    * `Updater.Guarded`

  The main statements are `Life.Lived.guarded` and
  `Life.installs_verified`.
-/

namespace Fota

open Update (Answer Course Happening Question Setting Talk)

------------------------------------------------------------
-- Guarded Updaters
------------------------------------------------------------

open Update
  (Attempt Awaited Brings Calm Justified Verification Verified)

namespace Updater

variable
  {s : Setting}
  {u next : Updater}
  {c c₀ : Course}
  {now : Instant}
  {entered : Bool}

/-
  An updater is guarded between calls: while it waits for a
  download, the last attempt is its own, and from there until
  the install is started, the download is verified.
-/
structure Guarded
    (u : Updater)
    (c : Course) : Prop where
  awaits :
    u.stage = .downloadReady → u.time.pendingSince ≠ none →
      Awaited u.checkpoint.path c.past
  drops :
    u.stage = .installCellDisconnecting →
      Verified u.checkpoint.path c.past
  starts :
    u.stage = .installStarting → u.time.enteredAt = none →
      Verified u.checkpoint.path c.past

/- In most stages there is nothing to guard. -/
theorem guarded_of_stage
    (hReady : u.stage ≠ .downloadReady)
    (hDropping : u.stage ≠ .installCellDisconnecting)
    (hStarting : u.stage ≠ .installStarting) :
    u.Guarded c :=
  ⟨fun hStage => absurd hStage hReady,
    fun hStage => absurd hStage hDropping,
    fun hStage => absurd hStage hStarting⟩

/- An updater stays guarded while nothing but calm happens. -/
theorem Guarded.goes
    {c' : Course}
    {question : Question}
    {answer : Answer question}
    (hGuarded : u.Guarded c)
    (hQuestion : question.Calm)
    (hGoes : Course.goes s c question answer c') :
    u.Guarded c' := by
  rcases Course.calm_of_goes hQuestion hGoes with
    ⟨added, hPast, hCalm⟩
  constructor
  · intro hStage hPending
    rw [hPast]
    exact (hGuarded.awaits hStage hPending).append hCalm
  · intro hStage
    rw [hPast]
    exact (hGuarded.drops hStage).append hCalm
  · intro hStage hEntered
    rw [hPast]
    exact (hGuarded.starts hStage hEntered).append hCalm

/- But for two stages, a tick asks calm questions only. -/
theorem calm_of_mayAsk
    {question : Question}
    (hReady : u.stage ≠ .downloadReady)
    (hStarting : u.stage = .installStarting → entered = false)
    (hAsk : u.MayAsk entered u.stage question) :
    question.Calm := by
  cases hStage : u.stage <;>
    rw [hStage] at hAsk hReady hStarting
  case downloadReady =>
    exact absurd rfl hReady
  case installStarting =>
    rw [hStarting rfl] at hAsk
    constructor
    · rintro rfl
      simp [MayAsk, storing] at hAsk
    · rintro rfl
      simp [MayAsk, storing] at hAsk
    · rintro file rfl
      simp [MayAsk, storing] at hAsk
  all_goals
    constructor
    · rintro rfl
      simp [MayAsk, storing] at hAsk
    · rintro rfl
      simp [MayAsk, storing] at hAsk
    · rintro file rfl
      simp [MayAsk, storing] at hAsk

theorem calm_of_quiet
    {question : Question}
    (hMem : question ∈ quietQuestions) :
    question.Calm := by
  constructor
  · rintro rfl
    simp [quietQuestions, requestQuestions] at hMem
  · rintro rfl
    simp [quietQuestions, requestQuestions] at hMem
  · rintro file rfl
    simp [quietQuestions, requestQuestions] at hMem

/- A request leaves an updater guarded. -/
theorem Guarded.request
    (hGuarded : u.Guarded c)
    (hNext : u.Requested next) :
    next.Guarded c := by
  rcases hNext with
    rfl | ⟨hReady, rfl⟩ | ⟨hIdle, rfl⟩ | ⟨path, hValid, hNext⟩
  · exact hGuarded
  · apply guarded_of_stage <;> simp [begun, moveTo, stage]
  · have hStage : u.checkpoint.stage = .idle := hIdle
    apply guarded_of_stage <;> simp [stage, hStage]
  · rcases hNext with ⟨hReady, rfl⟩ | ⟨hIdle, rfl⟩
    · apply guarded_of_stage <;>
        simp [begun, usePath, moveTo, stage]
    · have hStage : u.checkpoint.stage = .idle := hIdle
      apply guarded_of_stage <;>
        simp [usePath, stage, hStage]

/- The updater that is about to work is guarded as before. -/
theorem Guarded.entering
    (hGuarded : u.Guarded c)
    (now : Instant) :
    (u.entering now).Guarded c := by
  refine ⟨hGuarded.awaits, hGuarded.drops, ?_⟩
  intro hStage hEntered
  cases hEntered

/- Working on most stages leaves an updater guarded. -/
theorem Guarded.work
    (hGuarded : u.Guarded c)
    (hReady : u.stage ≠ .downloadReady)
    (hEntered : u.time.enteredAt ≠ none)
    (hNext : u.MayBecome now entered u.stage next) :
    next.Guarded c := by
  by_cases hDropping : u.stage = .installCellDisconnecting
  · rw [hDropping] at hNext
    rcases hNext with rfl | rfl
    · constructor
      · intro hStage
        cases hStage
      · intro hStage
        cases hStage
      · intro hStage hFresh
        exact hGuarded.drops hDropping
    · unfold waits
      split
      · apply guarded_of_stage <;> simp [fail, moveTo, stage]
      · exact hGuarded
  · rcases edge_of_mayBecome hNext with hStay | hMove | hTaken
    · rcases hStay with ⟨hSame, hTime⟩
      constructor
      · intro hStage
        exact absurd (hSame.symm.trans hStage) hReady
      · intro hStage
        exact absurd (hSame.symm.trans hStage) hDropping
      · intro hStage hFresh
        rw [hTime] at hFresh
        exact absurd hFresh hEntered
    · rcases hMove with ⟨hMem, hTime⟩
      constructor
      · intro hStage hPending
        rw [hTime] at hPending
        exact absurd rfl hPending
      · intro hStage
        rw [hStage] at hMem
        cases hFrom : u.stage <;> rw [hFrom] at hMem hReady
        case downloadReady =>
          exact absurd rfl hReady
        all_goals
          simp [Stage.successors] at hMem
      · intro hStage
        rw [hStage] at hMem
        cases hFrom : u.stage <;> rw [hFrom] at hMem hDropping
        case installCellDisconnecting =>
          exact absurd rfl hDropping
        all_goals
          simp [Stage.successors] at hMem
    · have hStage := hTaken.2
      apply guarded_of_stage <;> simp [hStage]

------------------------------------------------------------
-- Downloads
------------------------------------------------------------

/- A download that was granted after a clear begins an attempt. -/
theorem awaited_of_granted
    {path : UpgradePath}
    {past added : List Happening}
    {reply : Reply}
    (hCalm : Calm added)
    (hGranted : reply.outcome = .ok) :
    Awaited path
      (past ++ .asked .clearCompletion () ::
        (added ++
          [.asked (.command (.download path.file)) reply])) := by
  refine ⟨past, _, rfl, ?_⟩
  constructor
  · intro answer hMem
    rcases List.mem_append.mp hMem with hMem | hMem
    · exact (hCalm _ _ hMem).clear rfl
    · cases List.mem_singleton.mp hMem
  · intro reply' hMem
    rcases List.mem_append.mp hMem with hMem | hMem
    · exact (hCalm _ _ hMem).install rfl
    · cases List.mem_singleton.mp hMem
  · exact ⟨reply, by simp, hGranted⟩
  · intro file reply' hMem
    rcases List.mem_append.mp hMem with hMem | hMem
    · exact absurd rfl ((hCalm _ _ hMem).download file)
    · cases List.mem_singleton.mp hMem
      rfl

/- A completion that is accepted verifies the download. -/
theorem verified_of_taken
    {path : UpgradePath}
    {past : List Happening}
    {completion : Completion}
    (hAwaited : Awaited path past)
    (hHeld :
      (past.foldl (fun m h => h.onMailbox m)
        Mailbox.empty).completion = some completion)
    (hAccepts : accepts path completion = true) :
    Verified path
      (past ++ [.asked .takeCompletion (some completion)]) := by
  rcases hAwaited with ⟨before, attempt, rfl, hAttempt⟩
  rw [List.foldl_append, List.foldl_cons] at hHeld
  have hDelivered :
      ∃ line, .notice line ∈ attempt ∧
        Report.completion? line = some completion := by
    rcases Happening.completion_foldl attempt hHeld with
      hLine | hCleared
    · exact hLine
    · cases hCleared
  unfold accepts at hAccepts
  simp only [Bool.and_eq_true, decide_eq_true_eq] at hAccepts
  rcases hAccepts with ⟨⟨⟨hCommand, hResult⟩, hStatus⟩, hDigest⟩
  refine
    ⟨before, attempt, completion, [], by simp, hAttempt,
      hDelivered, ⟨hCommand, hResult, hStatus, hDigest⟩, ?_, ?_⟩
  · intro answer hMem
    cases hMem
  · intro reply hMem
    cases hMem

/- An attempt that was lost leaves nothing to guard. -/
theorem guarded_attemptLost
    (hStage : u.stage = .downloadReady) :
    u.attemptLost.Guarded c := by
  dsimp only [attemptLost]
  split
  · apply guarded_of_stage <;> simp [fail, moveTo, stage]
  · constructor
    · intro hReady hPending
      exact absurd rfl hPending
    · intro hDropping
      exact absurd (hStage.symm.trans hDropping) (by simp)
    · intro hStarting
      exact absurd (hStage.symm.trans hStarting) (by simp)

/- Installs stay justified while none is started. -/
theorem justified_of_goes
    {path : UpgradePath}
    {c' : Course}
    {question : Question}
    {answer : Answer question}
    (hQuestion : question ≠ .command .install)
    (hJustified : c₀.InstallsJustified path c)
    (hGoes : Course.goes s c question answer c') :
    c₀.InstallsJustified path c' :=
  hJustified.goes (fun hEq => absurd hEq hQuestion) hGoes

theorem always_attemptFailed
    {path : UpgradePath}
    (hStage : u.stage = .downloadReady)
    (hJustified : c₀.InstallsJustified path c) :
    u.attemptFailed.Always (Course.goes s)
      (c₀.InstallsJustified path)
      (fun next c' => next.Guarded c') c := by
  have hAsks :
      u.attemptFailed.Asks (· ≠ .command .install) := by
    apply attemptFailed_asks <;> simp
  have hKept :
      ∀ c question answer c', question ≠ .command .install →
        c₀.InstallsJustified path c →
        Course.goes s c question answer c' →
        c₀.InstallsJustified path c' := by
    intro c question answer c' hQuestion
    exact justified_of_goes hQuestion
  apply (Dialogue.always_of_asks hAsks attemptFailed_yields
    hKept hJustified).mono
  · intro c hJustified
    exact hJustified
  · intro next c' hNext
    rw [hNext.1]
    exact guarded_attemptLost hStage

/- The command that downloads, after the mailbox was cleared. -/
theorem always_startDownload
    {path : UpgradePath}
    {past added : List Happening}
    (hPath : u.checkpoint.path = path)
    (hStage : u.stage = .downloadReady)
    (hPast :
      c.past = past ++ .asked .clearCompletion () :: added)
    (hCalm : Calm added)
    (hJustified : c₀.InstallsJustified path c) :
    (do
      let outcome ←
        Talk.carryOut (Procedure.startDownload path.file)
      if outcome.isOk then
        return { u with time.pendingSince := some now }
      else
        u.attemptFailed : Talk Updater).Always (Course.goes s)
      (c₀.InstallsJustified path)
      (fun next c' => next.Guarded c') c := by
  unfold Procedure.startDownload
  rw [Talk.carryOut_carryOut]
  by_cases hFits : (Command.download path.file).Fits
  · rw [if_pos hFits]
    simp only [Dialogue.ask_bind, Dialogue.done_bind,
      Dialogue.always_ask]
    intro reply c' hGoes
    have hNext : c₀.InstallsJustified path c' :=
      justified_of_goes (by simp) hJustified hGoes
    refine ⟨hNext, ?_⟩
    by_cases hOk : reply.outcome.isOk = true
    · rw [if_pos hOk]
      have hGranted : reply.outcome = .ok := by
        cases hOutcome : reply.outcome <;>
          rw [hOutcome] at hOk <;> simp_all [Outcome.isOk]
      rcases Course.past_of_goes hGoes with ⟨lines, hPast'⟩
      have hAdded :
          Calm (added ++ lines.map .notice) := by
        intro question answer hMem
        rcases List.mem_append.mp hMem with hMem | hMem
        · exact hCalm _ _ hMem
        · exact Update.calm_notices lines _ _ hMem
      rw [Dialogue.pure_eq_done, Dialogue.always_done]
      constructor
      · intro hReady hPending
        have hAwaited :
            Awaited path
              (past ++ .asked .clearCompletion () ::
                ((added ++ lines.map .notice) ++
                  [.asked (.command (.download path.file))
                    reply])) :=
          awaited_of_granted hAdded hGranted
        rw [hPath, hPast', hPast]
        simpa using hAwaited
      · intro hDropping
        exact absurd (hStage.symm.trans hDropping) (by simp)
      · intro hStarting
        exact absurd (hStage.symm.trans hStarting) (by simp)
    · rw [if_neg hOk]
      exact always_attemptFailed hStage hNext
  · rw [if_neg hFits]
    exact always_attemptFailed hStage hJustified

/- Beginning an attempt leaves an updater guarded. -/
theorem always_beginAttempt
    (hStage : u.stage = .downloadReady)
    (hJustified : c₀.InstallsJustified u.checkpoint.path c) :
    (u.beginAttempt now).Always (Course.goes s)
      (c₀.InstallsJustified u.checkpoint.path)
      (fun next c' => next.Guarded c') c := by
  have hKept :
      ∀ c question answer c', question ≠ .command .install →
        c₀.InstallsJustified u.checkpoint.path c →
        Course.goes s c question answer c' →
        c₀.InstallsJustified u.checkpoint.path c' := by
    intro c question answer c' hQuestion
    exact justified_of_goes hQuestion
  have hRestore :
      restoreData.Asks (· ≠ .command .install) := by
    apply restoreData_asks <;> simp
  have hDelete :
      (deleteStaleImage u.checkpoint.path.file).Asks
        (· ≠ .command .install) := by
    apply deleteStaleImage_asks <;> simp
  unfold beginAttempt
  rw [Dialogue.always_bind]
  apply (Dialogue.always_of_asks hRestore
    (Dialogue.yields_true _) hKept hJustified).mono
  · intro c hJustified
    exact hJustified
  intro _ c₁ hRestored
  rw [Dialogue.always_bind]
  apply (Dialogue.always_of_asks hDelete
    (Dialogue.yields_true _) hKept hRestored.2).mono
  · intro c hJustified
    exact hJustified
  intro _ c₂ hDeleted
  simp only [Talk.clearCompletion, Talk.count,
    Dialogue.ask_bind, Dialogue.done_bind, Dialogue.always_ask]
  intro _ c₃ hCleared
  have hJustified₃ := hKept _ _ _ _ (by simp) hDeleted.2 hCleared
  refine ⟨hJustified₃, ?_⟩
  intro _ c₄ hCounted
  have hJustified₄ := hKept _ _ _ _ (by simp) hJustified₃ hCounted
  refine ⟨hJustified₄, ?_⟩
  rcases Course.past_of_goes hCleared with ⟨lines, hPast₃⟩
  have hAdded :=
    Course.calm_of_goes ⟨by simp, by simp, by simp⟩ hCounted
  rcases hAdded with ⟨added, hPast₄, hCalm⟩
  apply always_startDownload rfl hStage _ hCalm hJustified₄
  · exact c₂.past ++ lines.map .notice
  · rw [hPast₄, hPast₃]
    simp

/- Looking for a completion leaves an updater guarded. -/
theorem always_downloadReady
    (hStage : u.stage = .downloadReady)
    (hGuarded : u.Guarded c)
    (hJustified : c₀.InstallsJustified u.checkpoint.path c) :
    (u.downloadReady now).Always (Course.goes s)
      (c₀.InstallsJustified u.checkpoint.path)
      (fun next c' => next.Guarded c') c := by
  unfold downloadReady
  cases hPending : u.time.pendingSince with
  | none =>
      exact always_beginAttempt hStage hJustified
  | some since =>
      have hAwaited : Awaited u.checkpoint.path c.past := by
        apply hGuarded.awaits hStage
        rw [hPending]
        exact Option.some_ne_none since
      simp only [Talk.takeCompletion, Dialogue.ask_bind,
        Dialogue.done_bind, Dialogue.always_ask]
      intro taken c' hTaken
      have hNext : c₀.InstallsJustified u.checkpoint.path c' :=
        justified_of_goes (by simp) hJustified hTaken
      refine ⟨hNext, ?_⟩
      cases taken with
      | none =>
          rw [Dialogue.always_ite, Dialogue.pure_eq_done,
            Dialogue.always_done]
          constructor
          · intro hLate
            exact always_attemptFailed hStage hNext
          · intro hEarly
            exact
              hGuarded.goes ⟨by simp, by simp, by simp⟩ hTaken
      | some completion =>
          rw [Dialogue.always_ite, Dialogue.pure_eq_done,
            Dialogue.always_done]
          constructor
          · intro hAccepts
            rcases hTaken with ⟨lines, hTruthful, hAllowed, rfl⟩
            have hVerified :=
              verified_of_taken
                (hAwaited.append (Update.calm_notices lines))
                hTruthful.symm hAccepts
            constructor
            · intro hReady
              cases hReady
            · intro hDropping
              exact hVerified
            · intro hStarting
              cases hStarting
          · intro hRefused
            exact always_attemptFailed hStage hNext

------------------------------------------------------------
-- Installs
------------------------------------------------------------

/- The install is started on a verified download. -/
theorem always_guarded_beginInstall
    (hStage : u.stage = .installStarting)
    (hEntered : u.time.enteredAt ≠ none)
    (hVerified : Verified u.checkpoint.path c.past)
    (hJustified : c₀.InstallsJustified u.checkpoint.path c) :
    (u.beginInstall now).Always (Course.goes s)
      (c₀.InstallsJustified u.checkpoint.path)
      (fun next c' => next.Guarded c') c := by
  have hKept :
      ∀ c question answer c',
        question = .command .identify ∨
          question = .clearProgress →
        c₀.InstallsJustified u.checkpoint.path c ∧
          Verified u.checkpoint.path c.past →
        Course.goes s c question answer c' →
        c₀.InstallsJustified u.checkpoint.path c' ∧
          Verified u.checkpoint.path c'.past := by
    intro c question answer c' hQuestion ⟨hJustified, hVerified⟩
      hGoes
    have hCalm : question.Calm := by
      rcases hQuestion with rfl | rfl
      · exact ⟨by simp, by simp, by simp⟩
      · exact ⟨by simp, by simp, by simp⟩
    have hAfter := Course.calm_of_goes hCalm hGoes
    rcases hAfter with ⟨added, hPast, hAdded⟩
    rw [hPast]
    exact
      ⟨hJustified.goes (fun _ => hVerified) hGoes,
        hVerified.append hAdded⟩
  apply always_beginInstall hKept _ _ ⟨hJustified, hVerified⟩
  · intro c hBoth
    exact hBoth.1
  · intro version c c' reply ⟨hJustified, hVerified⟩ hInstalled
    refine
      ⟨hJustified.goes (fun _ => hVerified) hInstalled, ?_, ?_⟩
    · apply guarded_of_stage <;> simp
    · constructor
      · intro hReady
        exact absurd (hStage.symm.trans hReady) (by simp)
      · intro hDropping
        exact absurd (hStage.symm.trans hDropping) (by simp)
      · intro hStarting hFresh
        exact absurd hFresh hEntered

------------------------------------------------------------
-- Guarded Lives
------------------------------------------------------------

/- Working on a stage leaves an updater guarded. -/
theorem always_guarded_work
    (hGuarded : u.Guarded c)
    (hJustified : c₀.InstallsJustified u.checkpoint.path c)
    (now : Instant) :
    ((u.entering now).work now u.time.enteredAt.isNone).Always
      (Course.goes s) (c₀.InstallsJustified u.checkpoint.path)
      (fun next c' => next.Guarded c') c := by
  have hEntering := hGuarded.entering now
  have hEntered : (u.entering now).time.enteredAt ≠ none :=
    Option.some_ne_none _
  change c₀.InstallsJustified (u.entering now).checkpoint.path c
    at hJustified
  change
    ((u.entering now).work now u.time.enteredAt.isNone).Always
      (Course.goes s)
      (c₀.InstallsJustified (u.entering now).checkpoint.path)
      (fun next c' => next.Guarded c') c
  by_cases hReady : (u.entering now).stage = .downloadReady
  · have hWork :
        (u.entering now).work now u.time.enteredAt.isNone =
          (u.entering now).downloadReady now := by
      unfold work
      rw [hReady]
    rw [hWork]
    exact always_downloadReady hReady hEntering hJustified
  · by_cases hFirst :
        (u.entering now).stage = .installStarting ∧
          u.time.enteredAt = none
    · rcases hFirst with ⟨hStage, hNone⟩
      have hWork :
          (u.entering now).work now u.time.enteredAt.isNone =
            (u.entering now).beginInstall now := by
        unfold work
        rw [hStage, hNone]
        rfl
      rw [hWork]
      have hVerified :
          Verified (u.entering now).checkpoint.path c.past :=
        hGuarded.starts hStage hNone
      exact
        always_guarded_beginInstall hStage hEntered hVerified
          hJustified
    · have hCalm :
          ∀ question,
            (u.entering now).MayAsk u.time.enteredAt.isNone
              (u.entering now).stage question →
            question.Calm := by
        intro question hAsk
        apply calm_of_mayAsk hReady _ hAsk
        intro hStage
        cases hTime : u.time.enteredAt with
        | none =>
            exact absurd ⟨hStage, hTime⟩ hFirst
        | some entered =>
            rfl
      have hKept :
          ∀ c question answer c',
            (u.entering now).MayAsk u.time.enteredAt.isNone
              (u.entering now).stage question →
            c₀.InstallsJustified
                (u.entering now).checkpoint.path c ∧
              (u.entering now).Guarded c →
            Course.goes s c question answer c' →
            c₀.InstallsJustified
                (u.entering now).checkpoint.path c' ∧
              (u.entering now).Guarded c' := by
        intro c question answer c' hAsk hBoth hGoes
        have hQuestion := hCalm question hAsk
        exact
          ⟨justified_of_goes hQuestion.install hBoth.1 hGoes,
            hBoth.2.goes hQuestion hGoes⟩
      apply (Dialogue.always_of_asks work_asks work_yields hKept
        ⟨hJustified, hEntering⟩).mono
      · intro c hBoth
        exact hBoth.1
      · intro next c' hNext
        exact hNext.2.2.work hReady hEntered hNext.1

/- A call leaves an updater guarded. -/
theorem always_guarded_call
    (call : Call)
    (hGuarded : u.Guarded c) :
    (call.carryOut u).Always (Course.goes s)
      (c.InstallsJustified u.checkpoint.path)
      (fun next c' => next.Guarded c') c := by
  have hKept :
      ∀ c' question answer c'',
        question ∈ quietQuestions →
        c.InstallsJustified u.checkpoint.path c' ∧
          u.Guarded c' →
        Course.goes s c' question answer c'' →
        c.InstallsJustified u.checkpoint.path c'' ∧
          u.Guarded c'' := by
    intro c' question answer c'' hMem hBoth hGoes
    have hQuestion := calm_of_quiet hMem
    exact
      ⟨justified_of_goes hQuestion.install hBoth.1 hGoes,
        hBoth.2.goes hQuestion hGoes⟩
  apply always_call call hKept
  · intro c' hBoth
    exact hBoth.1
  · intro next c' hNext hBoth
    exact hBoth.2.request hNext
  · intro cooldown c' hBoth
    exact ⟨hBoth.2.awaits, hBoth.2.drops, hBoth.2.starts⟩
  · intro now c' hBoth
    exact always_guarded_work hBoth.2 hBoth.1 now
  · exact ⟨Course.installsJustified_refl _ _, hGuarded⟩

end Updater

namespace Life

/- A start leaves nothing to guard. -/
theorem guarded_of_wakes
    {s : Setting}
    {slot : Option (List UInt8)}
    {safeMode : Bool}
    {next : Updater}
    {c : Course}
    (hHeld : ∀ stored, Updater.Holds slot stored →
      stored.Recorded)
    (hWakes : Updater.Wakes s slot safeMode next.checkpoint) :
    next.Guarded c := by
  have hStage :
      next.checkpoint.stage ∈ Checkpoint.storedStages :=
    (Updater.recorded_of_wakes hHeld hWakes).stage
  have hNot :
      ∀ stage, stage ∉ Checkpoint.storedStages →
        next.stage ≠ stage := by
    rintro stage hOther rfl
    exact hOther hStage
  apply Updater.guarded_of_stage
  · exact hNot _ (by simp [Checkpoint.storedStages])
  · exact hNot _ (by simp [Checkpoint.storedStages])
  · exact hNot _ (by simp [Checkpoint.storedStages])

/- An updater is guarded between any two calls. -/
theorem Lived.guarded
    {s : Setting}
    {l : Life}
    (hLived : l.Lived s) :
    ∀ u ∈ l.updater, u.Guarded l.course := by
  refine
    (Lived.invariant (fun _ => True) Updater.Guarded
      ?_ ?_ ?_ hLived).2
  · intro slot safeMode hUnreadable
    trivial
  · intro l slot safeMode policy server hLived _ hSurvives
    refine ⟨trivial, ?_⟩
    apply (Updater.always_init (fun _ _ _ _ _ _ _ => trivial)
      trivial).mono
    · intro c _
      trivial
    · intro next c hNext
      exact
        guarded_of_wakes (hLived.recorded hSurvives) hNext.1.2
  · intro call u c _ hGuarded
    apply (Updater.always_guarded_call call hGuarded).mono
    · intro c' _
      trivial
    · intro next c' hNext
      exact hNext

/-
  Whenever an install is started, in a call of an updater, the
  past ends in a verified download along its current path. No
  install is started while the updater is.
-/
theorem installs_verified
    {l l' : Life}
    {reply : Reply}
    (hLived : l.Lived .free) :
    (l.Boots .free l' →
      .asked (.command .install) reply ∉ l'.course.past) ∧
    ∀ call before after,
      l.Calls .free call l' →
      l'.course.past =
        l.course.past ++ before ++
          .asked (.command .install) reply :: after →
      ∃ u ∈ l.updater,
        Verified u.checkpoint.path
          (l.course.past ++ before) := by
  constructor
  · intro hBoots hMem
    rcases hBoots.mayAsk with ⟨slot, hWaking⟩
    have hAsk := hWaking _ _ hMem
    simp [Updater.WakingAsks] at hAsk
  · intro call before after hCalls hPast
    rcases hCalls with ⟨u, hMem, hLeads⟩
    have hGuarded := hLived.guarded u hMem
    have hInstalls :=
      (hLeads.of_always
        (Updater.always_guarded_call call hGuarded)
        (Course.installsJustified_refl _ _)).1
    rcases hInstalls with ⟨added, hAdded, hJustified⟩
    rw [hAdded, List.append_assoc] at hPast
    have hEq := List.append_cancel_left hPast
    exact ⟨u, hMem, hJustified before reply after hEq⟩

/- A smooth run starts an install, on a verified download. -/
theorem install_verified_on_smooth_run :
    ∃ l l' : Life, ∃ reply before after,
      l.Lived .free ∧ l.Calls .free .tick l' ∧
        l'.course.past =
          l.course.past ++ before ++
            .asked (.command .install) reply :: after ∧
        ∃ u ∈ l.updater,
          Verified u.checkpoint.path
            (l.course.past ++ before) := by
  have hLived : (smooth 11).Lived .free := (lived_smooth 11).free
  have hMoments :
      (smooth 11).updater.isSome = true ∧
        (smooth 11).course.past.any Happening.startsInstall =
          false ∧
        (smooth 12).course.past.any Happening.startsInstall =
          true := by
    decide +kernel
  rcases hMoments with ⟨hSome, hBefore, hAfter⟩
  rcases Option.isSome_iff_exists.mp hSome with ⟨u, hUpdater⟩
  have hCalls : (smooth 11).Calls .free .tick (smooth 12) :=
    (calls_perform .tick hUpdater).free
  rcases hCalls.asksOnly with ⟨_, _, added, hPast, _⟩
  rw [hPast, List.any_append, hBefore, Bool.false_or,
    List.any_eq_true] at hAfter
  rcases hAfter with ⟨h, hMem, hStarts⟩
  rcases Happening.exists_of_startsInstall hStarts with
    ⟨reply, rfl⟩
  rcases List.append_of_mem hMem with ⟨before, after, rfl⟩
  rw [← List.append_assoc] at hPast
  exact
    ⟨_, _, reply, before, after, hLived, hCalls, hPast,
      (installs_verified hLived).2 _ _ _ hCalls hPast⟩

end Life

end Fota
