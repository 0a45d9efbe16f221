import Fota.Proofs.Update.Edges
import Fota.Proofs.Update.Life

/-
  This file states what a call of the updater and its start may
  ask and lead to, by way of what a stage may.

  Key definitions include:
    * `Updater.requestQuestions`
    * `Updater.Requested`
    * `Updater.Spared`
    * `Updater.entering`
    * `Updater.WakingAsks`
    * `Updater.Wakes`

  The main statements are `Updater.always_request`,
  `Updater.always_tick` and `Updater.always_init`.
-/

namespace Fota

open Update (Course Question Setting Talk)

namespace Updater

variable
  {s : Setting}
  {J safe : Course → Prop}
  {post : Updater → Course → Prop}
  {u next : Updater}
  {c : Course}

------------------------------------------------------------
-- Requests
------------------------------------------------------------

/- What an updater may ask before it agrees to a run. -/
def inquiries : List Question :=
  [.modemFamily, .areUpdatesEnabled, .isFeatureEnabled,
    .networkPower, .networkOn, .now, .delay powerPoll]

/- What an updater may ask when it is asked for a run. -/
def requestQuestions : List Question :=
  [.modemFamily, .areUpdatesEnabled, .isFeatureEnabled,
    .networkPower, .networkOn, .now, .delay powerPoll,
    .count .updateRun]

/- The updater at the beginning of a run. -/
def begun
    (u : Updater) : Updater :=
  { u with retries := .none, cooldown := none }.moveTo
    .qualifyFlags

/- What a request may leave behind. -/
def Requested
    (u next : Updater) : Prop :=
  next = u ∨
    (u.Ready ∧ next = u.begun) ∨
    (u.stage = .idle ∧
      next =
        { u with
          checkpoint.path := .empty
          checkpoint.ownPath := false }) ∨
    ∃ path : UpgradePath, path.Valid ∧
      ((u.Ready ∧ next = (u.usePath path).begun) ∨
        (u.stage = .idle ∧ next = u.usePath path))

/- What a request does not touch, though it may begin a run. -/
structure Spared
    (u next : Updater) : Prop where
  shown : next.shown = u.shown
  status : next.status = u.status
  stage :
    next.stage = u.stage ∨
      (u.stage = .idle ∧ next.stage = .qualifyFlags)

theorem Requested.spared
    (hNext : u.Requested next) :
    u.Spared next := by
  rcases hNext with
    rfl | ⟨hReady, rfl⟩ | ⟨_, rfl⟩ | ⟨path, _, hPath⟩
  · exact ⟨rfl, rfl, .inl rfl⟩
  · exact ⟨rfl, rfl, .inr ⟨hReady.2.1, rfl⟩⟩
  · exact ⟨rfl, rfl, .inl rfl⟩
  · rcases hPath with ⟨hReady, rfl⟩ | ⟨_, rfl⟩
    · exact ⟨rfl, rfl, .inr ⟨hReady.2.1, rfl⟩⟩
    · exact ⟨rfl, rfl, .inl rfl⟩

theorem awaitPower_asks
    (began : Instant)
    (timeout : UInt32)
    (looks : Nat) :
    (awaitPower began timeout looks).Asks
      (· ∈ inquiries) := by
  induction looks with
  | zero =>
      exact Dialogue.asks_done _ _
  | succ looks ih =>
      simp [awaitPower, inquiries] at ih ⊢
      exact fun _ _ _ _ => ih

theorem powerOn_asks :
    u.powerOn.Asks (· ∈ inquiries) := by
  unfold powerOn
  simp only [Talk.networkPower, Talk.networkOn, Talk.now,
    Dialogue.ask_bind, Dialogue.done_bind, Dialogue.asks_ask,
    Dialogue.asks_ite]
  refine ⟨by simp [inquiries], ?_⟩
  intro power
  refine ⟨fun _ => Dialogue.asks_done _ _, ?_⟩
  intro hOff
  refine ⟨by simp [inquiries], ?_⟩
  intro answer
  cases answer with
  | error fault =>
      exact Dialogue.asks_done _ _
  | ok done =>
      rw [Dialogue.asks_ask]
      refine ⟨by simp [inquiries], ?_⟩
      intro began
      exact awaitPower_asks _ _ _

theorem isAllowed_asks :
    isAllowed.Asks (· ∈ inquiries) := by
  simp [isAllowed, inquiries]

theorem inquiries_subset
    (question : Question)
    (hMem : question ∈ inquiries) :
    question ∈ requestQuestions := by
  have hParts :
      requestQuestions = inquiries ++ [.count .updateRun] :=
    rfl
  rw [hParts]
  exact List.mem_append_left _ hMem

theorem beginRun_asks :
    u.beginRun.Asks (· ∈ requestQuestions) := by
  simp [beginRun, requestQuestions]

theorem beginRun_yields :
    u.beginRun.Yields (fun next => next = u.begun) := by
  unfold beginRun begun
  simp

theorem talk_asks
    {call : Call}
    (hRequest : call ≠ .tick) :
    (call.talk u).Asks (· ∈ requestQuestions) := by
  cases call with
  | tick =>
      exact absurd rfl hRequest
  | setPath path =>
      exact Dialogue.asks_done _ _
  | checkUpdate path =>
      simp [Call.talk, checkUpdate, beginRun_asks]
  | enableUpdates =>
      unfold Call.talk enableUpdates
      rw [Dialogue.asks_ite]
      refine ⟨fun _ => Dialogue.asks_done _ _, ?_⟩
      intro hReady
      apply (isAllowed_asks.mono inquiries_subset).bind
      intro allowed
      rw [Dialogue.asks_ite]
      refine ⟨fun _ => Dialogue.asks_done _ _, ?_⟩
      intro hAllowed
      apply (powerOn_asks.mono inquiries_subset).bind
      intro powered
      rw [Dialogue.asks_ite]
      refine ⟨fun _ => Dialogue.asks_done _ _, ?_⟩
      intro hPowered
      apply beginRun_asks.bind
      intro begun
      exact Dialogue.asks_done _ _

theorem request_asks
    {call : Call}
    (hRequest : call ≠ .tick) :
    (call.carryOut u).Asks (· ∈ requestQuestions) := by
  unfold Call.carryOut
  apply (talk_asks hRequest).bind
  intro answer
  cases answer <;> exact Dialogue.asks_done _ _

/- A run that has begun is what was asked for. -/
theorem begins_yields
    {P : Updater → Prop}
    (hBegun : P u.begun) :
    (do return .ok (← u.beginRun) :
      Talk (Except Fault Updater)).Yields
        (fun answer => ∀ next, answer = .ok next → P next) := by
  rw [Dialogue.yields_bind]
  apply beginRun_yields.mono
  intro begun hBegin
  rw [Dialogue.pure_eq_done, Dialogue.yields_done]
  intro next hNext
  cases hNext
  rw [hBegin]
  exact hBegun

/- A request that is refused leaves nothing behind. -/
theorem refuses_yields
    {P : Updater → Prop}
    (fault : Fault) :
    (return .error fault : Talk (Except Fault Updater)).Yields
      (fun answer => ∀ next, answer = .ok next → P next) := by
  rw [Dialogue.pure_eq_done, Dialogue.yields_done]
  intro next hNext
  cases hNext

theorem setPath_requested
    {path : Option UpgradePath}
    {next : Updater}
    (hSet : u.setPath path = .ok next) :
    u.Requested next := by
  unfold setPath at hSet
  by_cases hIdle : u.stage = .idle
  · rw [if_neg (not_not_intro hIdle)] at hSet
    right; right
    cases path with
    | none =>
        cases hSet
        exact Or.inl ⟨hIdle, rfl⟩
    | some path =>
        simp only at hSet
        split at hSet
        · cases hSet
          exact Or.inr ⟨path, ‹_›, Or.inr ⟨hIdle, rfl⟩⟩
        · cases hSet
  · rw [if_pos hIdle] at hSet
    cases hSet

theorem talk_yields
    {call : Call}
    (hRequest : call ≠ .tick) :
    (call.talk u).Yields
      (fun answer =>
        ∀ next, answer = .ok next → u.Requested next) := by
  cases call with
  | tick =>
      exact absurd rfl hRequest
  | setPath path =>
      apply (Dialogue.yields_done _ _).mpr
      intro next hNext
      exact setPath_requested hNext
  | checkUpdate path =>
      unfold Call.talk checkUpdate
      simp only [Dialogue.yields_ite]
      refine ⟨fun _ => refuses_yields _, ?_⟩
      intro hValid
      refine ⟨fun _ => refuses_yields _, ?_⟩
      intro hReady
      apply begins_yields
      right; right; right
      exact
        ⟨path, Classical.not_not.mp hValid,
          Or.inl ⟨Classical.not_not.mp hReady, rfl⟩⟩
  | enableUpdates =>
      unfold Call.talk enableUpdates
      rw [Dialogue.yields_ite]
      refine ⟨fun _ => refuses_yields _, ?_⟩
      intro hReady
      rw [Dialogue.yields_bind]
      apply Dialogue.Yields.of_forall
      intro allowed
      rw [Dialogue.yields_ite]
      refine ⟨fun _ => refuses_yields _, ?_⟩
      intro hAllowed
      rw [Dialogue.yields_bind]
      apply Dialogue.Yields.of_forall
      intro powered
      rw [Dialogue.yields_ite]
      refine ⟨fun _ => refuses_yields _, ?_⟩
      intro hPowered
      apply begins_yields
      exact Or.inr (Or.inl ⟨Classical.not_not.mp hReady, rfl⟩)

theorem request_yields
    {call : Call}
    (hRequest : call ≠ .tick) :
    (call.carryOut u).Yields u.Requested := by
  unfold Call.carryOut
  rw [Dialogue.yields_bind]
  apply (talk_yields hRequest).mono
  intro answer hAnswer
  cases answer with
  | ok next =>
      exact (Dialogue.yields_done _ _).mpr (hAnswer next rfl)
  | error fault =>
      exact (Dialogue.yields_done _ _).mpr (Or.inl rfl)

/-
  A property that survives the questions of a request survives
  the request.
-/
theorem always_request
    {call : Call}
    (hRequest : call ≠ .tick)
    (hKept : ∀ c question answer c',
      question ∈ requestQuestions → J c →
      Course.goes s c question answer c' → J c')
    (hStart : J c) :
    (call.carryOut u).Always (Course.goes s) J
      (fun next c' => u.Requested next ∧ J c') c :=
  Dialogue.always_of_asks (request_asks hRequest)
    (request_yields hRequest) hKept hStart

------------------------------------------------------------
-- Ticks
------------------------------------------------------------

/- The updater that is about to work in a tick. -/
def entering
    (now : Instant)
    (u : Updater) : Updater :=
  { u with cooldown := none, time := u.time.enter now }

/-
  A tick looks for notices and at the clock. Then it is over, or
  it works on the stage.
-/
theorem always_tick
    (hKept : ∀ c question answer c',
      question = .hearNotices ∨ question = .now → J c →
      Course.goes s c question answer c' → J c')
    (hSafe : ∀ c, J c → safe c)
    (hPaused : ∀ cooldown c, J c →
      post { u with cooldown := cooldown } c)
    (hWork : ∀ now c, J c →
      ((u.entering now).work now u.time.enteredAt.isNone).Always
        (Course.goes s) safe post c)
    (hStart : J c) :
    (Call.tick.carryOut u).Always (Course.goes s) safe post c := by
  unfold Call.carryOut Call.talk tick
  by_cases hStarted : u.started = true
  · rw [if_neg (not_not_intro hStarted)]
    simp only [Talk.hearNotices, Talk.now, Dialogue.ask_bind,
      Dialogue.done_bind, Dialogue.always_ask]
    intro _ c₁ hHeard
    have hJ₁ : J c₁ :=
      hKept _ _ _ _ (Or.inl rfl) hStart hHeard
    refine ⟨hSafe c₁ hJ₁, ?_⟩
    intro now c₂ hNow
    have hJ₂ : J c₂ := hKept _ _ _ _ (Or.inr rfl) hJ₁ hNow
    refine ⟨hSafe c₂ hJ₂, ?_⟩
    cases hCooldown : Cooldown.update now u.cooldown with
    | some cooldown =>
        simp
        exact hPaused (some cooldown) c₂ hJ₂
    | none =>
        simp
        exact hWork now c₂ hJ₂
  · rw [if_pos hStarted]
    simp
    exact hPaused u.cooldown c hStart

------------------------------------------------------------
-- Calls
------------------------------------------------------------

/- What an updater may ask in a call besides work on a stage. -/
def quietQuestions : List Question :=
  .hearNotices :: requestQuestions

/-
  A call is a request or a tick. A property that survives the
  quiet questions survives all but the work on the stage.
-/
theorem always_call
    (call : Call)
    (hKept : ∀ c question answer c',
      question ∈ quietQuestions → J c →
      Course.goes s c question answer c' → J c')
    (hSafe : ∀ c, J c → safe c)
    (hRequested : ∀ next c, u.Requested next → J c →
      post next c)
    (hPaused : ∀ cooldown c, J c →
      post { u with cooldown := cooldown } c)
    (hWork : ∀ now c, J c →
      ((u.entering now).work now u.time.enteredAt.isNone).Always
        (Course.goes s) safe post c)
    (hStart : J c) :
    (call.carryOut u).Always (Course.goes s) safe post c := by
  by_cases hTick : call = .tick
  · rw [hTick]
    apply always_tick _ hSafe hPaused hWork hStart
    intro c question answer c' hQuestion
    apply hKept
    rcases hQuestion with rfl | rfl
    · simp [quietQuestions]
    · simp [quietQuestions, requestQuestions]
  · have hQuiet :
        ∀ c question answer c',
          question ∈ requestQuestions → J c →
          Course.goes s c question answer c' → J c' := by
      intro c question answer c' hQuestion
      apply hKept
      exact List.mem_cons_of_mem _ hQuestion
    apply (always_request hTick hQuiet hStart).mono hSafe
    intro next c' hNext
    exact hRequested next c' hNext.1 hNext.2

------------------------------------------------------------
-- Start of an Install
------------------------------------------------------------

/-
  Before an install is started, the version is read and the
  progress is forgotten. The run ends if the modem refuses.
-/
theorem always_beginInstall
    {now : Instant}
    (hKept : ∀ c question answer c',
      question = .command .identify ∨
        question = .clearProgress → J c →
      Course.goes s c question answer c' → J c')
    (hSafe : ∀ c, J c → safe c)
    (hInstall : ∀ version c c' reply, J c →
      Course.goes s c (.command .install) reply c' →
        safe c' ∧
          post
            ((u.replacing version).fail .installAtError
              .finishedPowerOff)
            c' ∧
          post
            ((u.replacing version).cool now
              u.policy.installStartPoll)
            c')
    (hStart : J c) :
    (u.beginInstall now).Always (Course.goes s) safe post c := by
  have hRead :
      (Talk.carryOut Procedure.readVersion).Asks
        (fun question =>
          question = .command .identify ∨
            question = .clearProgress) :=
    Talk.asks_readVersion (Or.inl rfl)
  unfold beginInstall
  rw [Dialogue.always_bind]
  apply (Dialogue.always_of_asks hRead (Dialogue.yields_true _)
    hKept hStart).mono hSafe
  intro version c₁ hVersion
  simp only [Talk.clearProgress, Dialogue.ask_bind,
    Dialogue.done_bind, Dialogue.always_ask]
  intro _ c₂ hCleared
  have hJ₂ := hKept _ _ _ _ (Or.inr rfl) hVersion.2 hCleared
  refine ⟨hSafe c₂ hJ₂, ?_⟩
  unfold Procedure.startInstall
  rw [Talk.carryOut_carryOut, if_pos (by decide)]
  simp only [Dialogue.pure_eq_done, Dialogue.ask_bind,
    Dialogue.done_bind, Dialogue.always_ask,
    Dialogue.always_ite, Dialogue.always_done]
  intro reply c₃ hInstalled
  have hEnd := hInstall version c₂ c₃ reply hJ₂ hInstalled
  exact ⟨hEnd.1, fun _ => hEnd.2.1, fun _ => hEnd.2.2⟩

------------------------------------------------------------
-- Questions of a Call
------------------------------------------------------------

/- What an updater may ask in a call. -/
def Call.MayAsk
    (u : Updater) :
    Call → Question → Prop
| .tick, question =>
    question = .hearNotices ∨ question = .now ∨
      u.MayAsk u.time.enteredAt.isNone u.stage question
| _, question => question ∈ requestQuestions

/- Entering a stage does not change what is offered. -/
theorem offered?_entering
    (now : Instant)
    (version : UInt32) :
    (u.entering now).offered? version =
      (u.offered? version).map (entering now) := by
  unfold offered? selectPath withVersion entering
  dsimp only
  cases u.checkpoint.ownPath with
  | true =>
      simp only [if_true]
      split <;> rfl
  | false =>
      cases UpgradePath.find? version <;> rfl

theorem mayAsk_entering
    {now : Instant}
    {entered : Bool}
    {stage : Stage}
    {question : Question}
    (hAsk : (u.entering now).MayAsk entered stage question) :
    u.MayAsk entered stage question := by
  cases stage with
  | qualifyModemOn =>
      rcases hAsk with hListed | ⟨version, next, hVersion, hOffer⟩
      · exact Or.inl hListed
      · rcases hOffer with ⟨hOffered, hQuestion⟩
        rw [offered?_entering, Option.map_eq_some_iff]
          at hOffered
        rcases hOffered with ⟨offer, hOffered, hNext⟩
        right
        refine ⟨version, offer, hVersion, hOffered, ?_⟩
        rw [hQuestion, ← hNext]
        rfl
  | _ =>
      exact hAsk

theorem tick_asks :
    (Call.tick.carryOut u).Asks (Call.tick.MayAsk u) := by
  unfold Call.carryOut
  apply Dialogue.Asks.bind
  · unfold Call.talk tick
    rw [Dialogue.asks_ite]
    refine ⟨fun _ => Dialogue.asks_done _ _, ?_⟩
    intro hStarted
    simp only [Talk.hearNotices, Talk.now, Dialogue.ask_bind,
      Dialogue.done_bind, Dialogue.asks_ask]
    refine ⟨Or.inl rfl, fun _ => ⟨Or.inr (Or.inl rfl), ?_⟩⟩
    intro now
    rw [Dialogue.asks_ite]
    refine ⟨fun _ => Dialogue.asks_done _ _, ?_⟩
    intro hWarm
    have hNone : Cooldown.update now u.cooldown = none := by
      simpa using hWarm
    apply Dialogue.Asks.bind
    · rw [hNone]
      apply work_asks.mono
      intro question hAsk
      exact Or.inr (Or.inr (mayAsk_entering hAsk))
    · intro next
      exact Dialogue.asks_done _ _
  · intro answer
    cases answer <;> exact Dialogue.asks_done _ _

/- A call asks what it may ask. -/
theorem carryOut_asks
    (call : Call) :
    (call.carryOut u).Asks (call.MayAsk u) := by
  cases call with
  | tick =>
      exact tick_asks
  | checkUpdate path =>
      exact request_asks (by simp)
  | setPath path =>
      exact request_asks (by simp)
  | enableUpdates =>
      exact request_asks (by simp)

------------------------------------------------------------
-- Starts
------------------------------------------------------------

/- In some course of a boot in a mode, the answer may be given. -/
def Permits
    (s : Setting)
    (safeMode : Bool)
    (question : Question)
    (answer : Update.Answer question) : Prop :=
  ∃ c : Course, c.safeMode = safeMode ∧ s c question answer

/- A slot holds a record of a checkpoint. -/
def Holds
    (slot : Option (List UInt8))
    (stored : Checkpoint) : Prop :=
  ∃ record ∈ slot, Record.decode? record = some stored

/- What an updater may ask at its start. -/
def WakingAsks
    (slot : Option (List UInt8))
    (question : Question) : Prop :=
  question ∈
      [.isSafeMode, .load Record.size, .count .reset,
        .resetToSafeMode] ∨
    ∃ stored, Holds slot stored ∧
      stored.stage = .finishedIdle ∧
      question ∈
        [.showStatus stored.status,
          .store (Record.encode (atRest stored))]

/-
  The checkpoint that a start may go on with. A stored one is
  taken up in safe mode; that of an install also when the reset
  into safe mode comes back.
-/
def Wakes
    (s : Setting)
    (slot : Option (List UInt8))
    (safeMode : Bool)
    (next : Checkpoint) : Prop :=
  next = .initial ∨
    ∃ stored, Holds slot stored ∧
      ((stored.stage = .finishedIdle ∧
          next = atRest stored) ∨
        (Permits s safeMode .isSafeMode true ∧
          next = stored) ∨
        (stored.stage = .installWaiting ∧
          Permits s safeMode .resetToSafeMode () ∧
          next = stored))

theorem permits_of_goes
    {c' : Course}
    {question : Question}
    {answer : Update.Answer question}
    (hGoes : Course.goes s c question answer c') :
    Permits s c.safeMode question answer := by
  rcases hGoes with ⟨lines, hTruthful, hAllowed, hNext⟩
  exact ⟨c.hear lines, rfl, hAllowed⟩

variable
  {slot : Option (List UInt8)}
  {stored : Checkpoint}
  {safeMode : Bool}

/- A finished run is shown, stored at rest and left at rest. -/
theorem always_resume_finished
    (hKept : ∀ c question answer c',
      WakingAsks slot question → J c →
      Course.goes s c question answer c' → J c')
    (hHolds : Holds slot stored)
    (hFinished : stored.stage = .finishedIdle)
    (hStart : J c) :
    (u.resume false stored).Always (Course.goes s) J
      (fun next c' =>
        Wakes s slot c.safeMode next.checkpoint ∧ J c') c := by
  have hAsks :
      ∀ question ∈
          [Question.showStatus stored.status,
            .store (Record.encode (atRest stored))],
        WakingAsks slot question := by
    intro question hMem
    exact Or.inr ⟨stored, hHolds, hFinished, hMem⟩
  unfold resume Updater.show persist
  simp only [if_pos hFinished, Talk.showStatus, Talk.store,
    Bool.false_eq_true, if_false, Dialogue.pure_eq_done,
    Dialogue.ask_bind, Dialogue.done_bind,
    Dialogue.always_ask, Dialogue.always_done]
  intro _ c₁ hShown
  have hJ₁ : J c₁ :=
    hKept _ _ _ _ (hAsks _ (by simp)) hStart hShown
  refine ⟨hJ₁, ?_⟩
  intro _ c₂ hStored
  have hJ₂ : J c₂ :=
    hKept _ _ _ _ (hAsks _ (by simp)) hJ₁ hStored
  refine ⟨hJ₂, ?_, hJ₂⟩
  exact Or.inr ⟨stored, hHolds, Or.inl ⟨hFinished, rfl⟩⟩

/- An install in normal mode goes on if the reset comes back. -/
theorem always_resume_install
    (hKept : ∀ c question answer c',
      WakingAsks slot question → J c →
      Course.goes s c question answer c' → J c')
    (hHolds : Holds slot stored)
    (hInstall : stored.stage = .installWaiting)
    (hStart : J c) :
    (u.resume false stored).Always (Course.goes s) J
      (fun next c' =>
        Wakes s slot c.safeMode next.checkpoint ∧ J c') c := by
  unfold resume
  simp only [hInstall, Talk.resetToSafeMode, reduceCtorEq,
    Bool.false_eq_true, not_false_eq_true, and_self, if_true,
    if_false, Dialogue.pure_eq_done, Dialogue.ask_bind,
    Dialogue.done_bind, Dialogue.always_ask,
    Dialogue.always_done]
  intro _ c₁ hCounted
  have hJ₁ : J c₁ :=
    hKept _ _ _ _ (Or.inl (by simp)) hStart hCounted
  refine ⟨hJ₁, ?_⟩
  intro _ c₂ hReset
  have hJ₂ : J c₂ :=
    hKept _ _ _ _ (Or.inl (by simp)) hJ₁ hReset
  refine ⟨hJ₂, ?_, hJ₂⟩
  have hPermits := permits_of_goes hReset
  rw [Course.safeMode_of_goes hCounted] at hPermits
  exact
    Or.inr
      ⟨stored, hHolds, Or.inr (Or.inr ⟨hInstall, hPermits, rfl⟩)⟩

/- A stored checkpoint is taken up, or put aside. -/
theorem always_resume
    (hKept : ∀ c question answer c',
      WakingAsks slot question → J c →
      Course.goes s c question answer c' → J c')
    (hHolds : Holds slot stored)
    (hMode : Permits s c.safeMode .isSafeMode safeMode)
    (hStart : J c) :
    (u.resume safeMode stored).Always (Course.goes s) J
      (fun next c' =>
        Wakes s slot c.safeMode next.checkpoint ∧ J c') c := by
  cases safeMode with
  | true =>
      unfold resume
      by_cases hFinished : stored.stage = .finishedIdle
      · simp only [if_pos hFinished, if_true,
          Dialogue.pure_eq_done, Dialogue.always_done]
        exact ⟨Or.inl rfl, hStart⟩
      · simp only [if_neg hFinished, not_true_eq_false,
          and_false, if_false, if_true, Dialogue.pure_eq_done,
          Dialogue.always_done]
        exact
          ⟨Or.inr ⟨stored, hHolds, Or.inr (Or.inl ⟨hMode, rfl⟩)⟩,
            hStart⟩
  | false =>
      by_cases hFinished : stored.stage = .finishedIdle
      · exact
          always_resume_finished hKept hHolds hFinished hStart
      · by_cases hInstall : stored.stage = .installWaiting
        · exact
            always_resume_install hKept hHolds hInstall hStart
        · unfold resume
          simp only [if_neg hFinished, hInstall, false_and,
            Bool.false_eq_true, if_false,
            Dialogue.pure_eq_done, Dialogue.always_done]
          exact ⟨Or.inl rfl, hStart⟩

/-
  A start looks at the mode and the slot and takes up what it
  finds there.
-/
theorem always_init
    (hKept : ∀ c question answer c',
      WakingAsks slot question → J c →
      Course.goes s c question answer c' → J c')
    (hStart : J (.fresh slot safeMode)) :
    u.init.Always (Course.goes s) J
      (fun next c' =>
        (next.time = .fresh ∧
          Wakes s slot safeMode next.checkpoint) ∧ J c')
      (.fresh slot safeMode) := by
  unfold init loadCheckpoint
  simp only [Talk.isSafeMode, Talk.load, Dialogue.ask_bind,
    Dialogue.done_bind, Dialogue.always_ask,
    Dialogue.always_bind]
  intro mode c₁ hAsked
  have hJ₁ : J c₁ :=
    hKept _ _ _ _ (Or.inl (by simp)) hStart hAsked
  have hSlot₁ : c₁.stored = slot :=
    Course.stored_of_goes hAsked (by simp)
  have hMode₁ : c₁.safeMode = safeMode :=
    Course.safeMode_of_goes hAsked
  have hPermits : Permits s safeMode .isSafeMode mode :=
    permits_of_goes hAsked
  refine ⟨hJ₁, ?_⟩
  intro answer c₂ hLoaded
  have hJ₂ : J c₂ :=
    hKept _ _ _ _ (Or.inl (by simp)) hJ₁ hLoaded
  have hMode₂ : c₂.safeMode = safeMode := by
    rw [Course.safeMode_of_goes hLoaded, hMode₁]
  refine ⟨hJ₂, ?_⟩
  cases answer with
  | error fault =>
      simp only [Dialogue.pure_eq_done, Dialogue.done_bind,
        Dialogue.always_done]
      exact ⟨⟨trivial, Or.inl rfl⟩, hJ₂⟩
  | ok record =>
      have hRecord : slot = some record := by
        rw [← hSlot₁, Course.stored_of_load hLoaded]
      simp only [Dialogue.pure_eq_done, Dialogue.always_done]
      cases hDecoded : Record.decode? record with
      | none =>
          simp only [Dialogue.done_bind, Dialogue.always_done]
          exact ⟨⟨trivial, Or.inl rfl⟩, hJ₂⟩
      | some stored =>
          have hHolds : Holds slot stored :=
            ⟨record, hRecord, hDecoded⟩
          simp only [Dialogue.always_bind, Dialogue.always_done]
          rw [← hMode₂] at hPermits
          apply (always_resume hKept hHolds hPermits hJ₂).mono
          · intro c hJ
            exact hJ
          · intro next c hNext
            rw [hMode₂] at hNext
            exact ⟨⟨trivial, hNext.1⟩, hNext.2⟩

end Updater

------------------------------------------------------------
-- Happenings of a Call
------------------------------------------------------------

namespace Update.Course

/- Since a moment of a boot, only questions in `K` were asked. -/
def AsksOnly
    (K : Question → Prop)
    (c c' : Course) : Prop :=
  ∃ added, c'.past = c.past ++ added ∧
    ∀ question answer,
      .asked question answer ∈ added → K question

theorem asksOnly_refl
    (K : Question → Prop)
    (c : Course) :
    c.AsksOnly K c :=
  ⟨[], by simp, by simp⟩

theorem asksOnly_of_goes
    {s : Setting}
    {K : Question → Prop}
    {c₀ c c' : Course}
    {question : Question}
    {answer : Update.Answer question}
    (hQuestion : K question)
    (hOnly : c₀.AsksOnly K c)
    (hGoes : goes s c question answer c') :
    c₀.AsksOnly K c' := by
  rcases hOnly with ⟨added, hPast, hAdded⟩
  rcases past_of_goes hGoes with ⟨lines, hNext⟩
  refine
    ⟨added ++ lines.map .notice ++ [.asked question answer],
      ?_, ?_⟩
  · rw [hNext, hPast]
    simp
  · intro other answer' hMem
    simp only [List.mem_append, List.mem_map, reduceCtorEq,
      and_false, exists_false, or_false,
      List.mem_singleton] at hMem
    rcases hMem with hMem | hEq
    · exact hAdded other answer' hMem
    · cases hEq
      exact hQuestion

end Update.Course

/- During a call, only what it may ask is asked. -/
theorem Life.Calls.asksOnly
    {s : Setting}
    {call : Updater.Call}
    {l l' : Life}
    (hCalls : l.Calls s call l') :
    ∃ u ∈ l.updater,
      l.course.AsksOnly (call.MayAsk u) l'.course := by
  rcases hCalls with ⟨u, hMem, hLeads⟩
  have hKept :
      ∀ c question answer c', call.MayAsk u question →
        l.course.AsksOnly (call.MayAsk u) c →
        Course.goes s c question answer c' →
        l.course.AsksOnly (call.MayAsk u) c' := by
    intro c question answer c' hAsk hOnly hGoes
    exact Course.asksOnly_of_goes hAsk hOnly hGoes
  have hOnly :=
    hLeads.keeps (Updater.carryOut_asks call) hKept
      (Course.asksOnly_refl _ _)
  exact ⟨u, hMem, hOnly⟩

/- During a start, only what it may ask is asked. -/
theorem Life.Boots.mayAsk
    {s : Setting}
    {l l' : Life}
    (hBoots : l.Boots s l') :
    ∃ slot, ∀ question answer,
      .asked question answer ∈ l'.course.past →
        Updater.WakingAsks slot question := by
  rcases hBoots with
    ⟨slot, safeMode, policy, server, hSurvives, hLeads⟩
  refine ⟨slot, ?_⟩
  have hKept :
      ∀ c question answer c',
        Updater.WakingAsks slot question →
        (Course.fresh slot safeMode).AsksOnly
          (Updater.WakingAsks slot) c →
        Course.goes s c question answer c' →
        (Course.fresh slot safeMode).AsksOnly
          (Updater.WakingAsks slot) c' := by
    intro c question answer c' hAsk hOnly hGoes
    exact Course.asksOnly_of_goes hAsk hOnly hGoes
  have hStart := Course.asksOnly_refl
    (Updater.WakingAsks slot) (.fresh slot safeMode)
  rcases (hLeads.of_always
    (Updater.always_init hKept hStart) hStart).1 with
    ⟨added, hPast, hAdded⟩
  intro question answer hMem
  rw [hPast] at hMem
  exact hAdded question answer hMem

end Fota
