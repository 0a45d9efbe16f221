import Fota.Proofs.Update.Turns

/-
  This file follows the upgrade path of the caller through the
  calls of a boot. An accepted request may tell the updater
  which path to use; it forgets the path of the caller when it
  comes back from a finished run and when it leaves safe mode,
  and at no other moment.

  Key definitions include:
    * `Updater.ownPath?`
    * `Updater.Call.told?`
    * `Turn.Forgets`
    * `Turn.given`
    * `Life.Session`

  The main statements are `Turn.ownPath?_after`, for one call,
  and `Life.Session.ownPath?_eq`, for all calls of a boot.
-/

namespace Fota

open Update (Exchange Setting Talk)

------------------------------------------------------------
-- The Path of the Caller
------------------------------------------------------------

namespace Updater

variable
  {u w next : Updater}
  {stage : Stage}
  {now : Instant}
  {entered : Bool}

/- The upgrade path of the caller, if there is one. -/
def ownPath?
    (u : Updater) : Option UpgradePath :=
  if u.checkpoint.ownPath then
    some u.checkpoint.path
  else
    none

@[simp]
theorem ownPath?_moveTo
    (target : Stage) :
    (u.moveTo target).ownPath? = u.ownPath? :=
  rfl

@[simp]
theorem ownPath?_setStatus
    (status : Status) :
    (u.setStatus status).ownPath? = u.ownPath? :=
  rfl

@[simp]
theorem ownPath?_cool
    (now : Instant)
    (duration : UInt32) :
    (u.cool now duration).ownPath? = u.ownPath? :=
  rfl

@[simp]
theorem ownPath?_entering
    (now : Instant) :
    (u.entering now).ownPath? = u.ownPath? :=
  rfl

@[simp]
theorem ownPath?_usePath
    (path : UpgradePath) :
    (u.usePath path).ownPath? = some path :=
  rfl

@[simp]
theorem ownPath?_begun :
    u.begun.ownPath? = u.ownPath? :=
  rfl

theorem ownPath?_waits
    {timeout : UInt32}
    {late early : Updater}
    (hLate : late.ownPath? = u.ownPath?)
    (hEarly : early.ownPath? = u.ownPath?) :
    (u.waits now timeout late early).ownPath? = u.ownPath? := by
  unfold waits
  split
  · exact hLate
  · exact hEarly

/- A known path takes the place of none of the caller. -/
theorem ownPath?_offered
    {version : UInt32}
    (hOffered : u.offered? version = some w) :
    w.ownPath? = u.ownPath? := by
  unfold offered? selectPath withVersion at hOffered
  dsimp only at hOffered
  split at hOffered
  · split at hOffered
    · cases hOffered
      rfl
    · cases hOffered
  · next hNone =>
      cases hFound : UpgradePath.find? version with
      | none =>
          rw [hFound] at hOffered
          cases hOffered
      | some path =>
          rw [hFound] at hOffered
          cases hOffered
          unfold ownPath?
          rw [if_neg hNone, if_neg hNone]

/- Work on a stage of a run keeps the path of the caller. -/
theorem ownPath?_of_mayBecome
    (hNext : u.MayBecome now entered stage next)
    (hIdle : stage ≠ .idle)
    (hFinished : stage ≠ .finishedIdle) :
    next.ownPath? = u.ownPath? := by
  cases stage <;> simp only [MayBecome] at hNext
  case idle =>
    exact absurd rfl hIdle
  case qualifyFlags =>
    rcases hNext with rfl | rfl | rfl | rfl <;> rfl
  case qualifyModemOn =>
    rcases hNext with rfl | rfl | ⟨version, hVersion, hOffer⟩
    · rfl
    · rfl
    · cases hOffered : u.offered? version with
      | none =>
          rw [hOffered] at hOffer
          rw [hOffer]
          rfl
      | some offer =>
          have hKept := ownPath?_offered hOffered
          rw [hOffered] at hOffer
          rcases hOffer with rfl | rfl
          · exact hKept
          · exact hKept
  case qualifyRetry =>
    rw [hNext]
    dsimp only [qualifyRetry]
    split <;> rfl
  case setupCloudConnect =>
    rw [hNext]
    rfl
  case setupCloudConnecting =>
    rcases hNext with rfl | rfl
    · rfl
    · exact ownPath?_waits rfl rfl
  case setupCloudConnected =>
    rcases hNext with rfl | rfl
    · rfl
    · dsimp only [publishRefused]
      split <;> rfl
  case downloadCloudDisconnect =>
    rcases hNext with rfl | rfl
    · rfl
    · exact ownPath?_waits rfl rfl
  case downloadCellDisconnecting =>
    rcases hNext with rfl | rfl
    · rfl
    · exact ownPath?_waits rfl rfl
  case downloadCellConnecting =>
    rcases hNext with rfl | rfl
    · rfl
    · exact ownPath?_waits rfl rfl
  case downloadHttpsSetup =>
    rcases hNext with rfl | rfl
    · rfl
    · dsimp only [setupRefused]
      split <;> rfl
  case downloadReady =>
    have hLost : u.attemptLost.ownPath? = u.ownPath? := by
      dsimp only [attemptLost]
      split <;> rfl
    cases hPending : u.time.pendingSince with
    | none =>
        rw [hPending] at hNext
        rcases hNext with rfl | rfl
        · rfl
        · exact hLost
    | some since =>
        rw [hPending] at hNext
        rcases hNext with rfl | rfl | ⟨_, rfl⟩
        · rfl
        · exact hLost
        · rfl
  case installCellDisconnecting =>
    rcases hNext with rfl | rfl
    · rfl
    · exact ownPath?_waits rfl rfl
  case installStarting =>
    cases entered with
    | true =>
        rcases hNext with ⟨version, rfl | rfl⟩ <;> rfl
    | false =>
        rcases hNext with rfl | rfl
        · rfl
        · exact ownPath?_waits rfl rfl
  case installWaiting =>
    cases entered with
    | true =>
        cases hNext
        rfl
    | false =>
        rcases hNext with ⟨version, complete, rfl⟩
        unfold judged
        split
        · rfl
        · rfl
        · exact ownPath?_waits rfl rfl
  case finishedPowerOff =>
    rw [hNext]
    rfl
  case finishedPoweringOff =>
    rcases hNext with rfl | rfl
    · rfl
    · exact ownPath?_waits rfl rfl
  case finishedCloudConnecting =>
    have hDelayed : u.exitDelayed.ownPath? = u.ownPath? := by
      dsimp only [exitDelayed]
      split <;> rfl
    rcases hNext with rfl | rfl
    · rfl
    · exact ownPath?_waits hDelayed rfl
  case finishedCloudConnected =>
    rcases hNext with rfl | rfl <;> rfl
  case finishedIdle =>
    exact absurd rfl hFinished

------------------------------------------------------------
-- Requests
------------------------------------------------------------

/-
  What an accepted request tells of the path: one of the caller,
  or none, which is to go back to the known ones.
-/
def Call.told?
    (u : Updater) : Call → Option (Option UpgradePath)
| .checkUpdate path =>
    if path.Valid ∧ u.Ready then
      some (some path)
    else
      none
| .setPath path =>
    if u.stage = .idle ∧ ∀ own ∈ path, own.Valid then
      some path
    else
      none
| .enableUpdates => none
| .tick => none

/-
  A request that is accepted is told the path that it names; one
  that is refused is told none.
-/
def Tells
    (u : Updater)
    (call : Call) : Except Fault Updater → Prop
| .ok next =>
    next.ownPath? = (call.told? u).getD u.ownPath? ∧
      (call = .enableUpdates ∨ (call.told? u).isSome = true)
| .error _ => call.told? u = none

theorem talk_tells
    {call : Call}
    (hRequest : call ≠ .tick) :
    (call.talk u).Yields (u.Tells call) := by
  cases call with
  | tick =>
      exact absurd rfl hRequest
  | setPath path =>
      apply (Dialogue.yields_done _ _).mpr
      unfold setPath
      by_cases hIdle : u.stage = .idle
      · rw [if_neg (not_not_intro hIdle)]
        cases path with
        | none => simp [Tells, Call.told?, hIdle, ownPath?]
        | some path =>
            by_cases hValid : path.Valid
            · simp [Tells, Call.told?, hIdle, hValid]
            · simp [Tells, Call.told?, hValid]
      · rw [if_pos hIdle]
        simp [Tells, Call.told?, hIdle]
  | checkUpdate path =>
      unfold Call.talk checkUpdate
      simp only [Dialogue.yields_ite, Dialogue.yields_bind,
        Dialogue.pure_eq_done, Dialogue.yields_done]
      refine ⟨?_, fun hValid => ⟨?_, fun hReady => ?_⟩⟩
      · intro hInvalid
        simp [Tells, Call.told?, hInvalid]
      · intro hBusy
        simp [Tells, Call.told?, hBusy]
      · rw [Classical.not_not] at hValid hReady
        apply beginRun_yields.mono
        rintro _ rfl
        simp [Tells, Call.told?, hValid, hReady]
  | enableUpdates =>
      unfold Call.talk enableUpdates
      simp only [Dialogue.yields_ite, Dialogue.yields_bind,
        Dialogue.pure_eq_done, Dialogue.yields_done]
      refine ⟨fun _ => rfl, fun hReady => ?_⟩
      apply Dialogue.Yields.of_forall
      intro allowed
      refine ⟨fun _ => rfl, fun hAllowed => ?_⟩
      apply Dialogue.Yields.of_forall
      intro powered
      refine ⟨fun _ => rfl, fun hPowered => ?_⟩
      apply beginRun_yields.mono
      rintro _ rfl
      exact ⟨rfl, .inl rfl⟩

/- A request that comes back was accepted, or changed nothing. -/
theorem unfolds_request
    {call : Call}
    {talk : List Exchange}
    (hRequest : call ≠ .tick)
    (hUnfolds : (call.carryOut u).Unfolds talk (some next)) :
    u.Tells call (.ok next) ∨
      call.told? u = none ∧ next = u := by
  unfold Call.carryOut at hUnfolds
  rw [Dialogue.unfolds_bind] at hUnfolds
  rcases hUnfolds with ⟨answer, _, _, _, hTalk, hEnd⟩
  have hTells := hTalk.yields (talk_tells hRequest)
  cases answer with
  | ok after =>
      rw [((Dialogue.unfolds_done _ _ _).mp hEnd).2]
      exact .inl hTells
  | error fault =>
      exact
        .inr ⟨hTells, ((Dialogue.unfolds_done _ _ _).mp hEnd).2⟩

end Updater

------------------------------------------------------------
-- Turns
------------------------------------------------------------

/- The device was told to leave safe mode, and came back. -/
def Update.Exchange.leavesSafeMode : Exchange → Bool
| ⟨.resetToNormalMode, _⟩ => true
| _ => false

namespace Turn

variable
  {turn : Turn}
  {turns : List Turn}
  {now : Instant}
  {rest : List Exchange}
  {own : Option UpgradePath}

/- What the caller tells of the path in the turn, if anything. -/
def told?
    (turn : Turn) : Option (Option UpgradePath) :=
  turn.call.told? turn.before

/-
  In the turn, the updater forgets the path of the caller: it
  comes to rest after a finished run, or leaves safe mode.
-/
def Forgets
    (turn : Turn) : Prop :=
  turn.before.stage = .finishedIdle ∧
      turn.after.stage = .idle ∨
    turn.talk.any Exchange.leavesSafeMode = true

instance
    (turn : Turn) :
    Decidable turn.Forgets := by
  unfold Forgets
  infer_instance

/- The path of the caller after a turn, given the one before. -/
def given
    (own : Option UpgradePath)
    (turn : Turn) : Option UpgradePath :=
  match turn.told? with
  | some path => path
  | none => if turn.Forgets then none else own

/- Without work, nothing is forgotten. -/
theorem Rests.not_forgets
    (hRests : turn.Rests) :
    ¬ turn.Forgets := by
  rintro (⟨hFinished, hIdle⟩ | hLeaves)
  · rcases hRests.spared.stage with hSame | ⟨hRest, -⟩
    · rw [hSame, hFinished] at hIdle
      cases hIdle
    · rw [hFinished] at hRest
      cases hRest
  · rcases List.any_eq_true.mp hLeaves with
      ⟨⟨question, answer⟩, hMem, hIs⟩
    have hQuiet := hRests.quiet _ hMem
    cases question <;> simp [Exchange.leavesSafeMode,
      Updater.quietQuestions, Updater.requestQuestions]
      at hIs hQuiet

/- Work at rest forgets the path when it leaves safe mode. -/
theorem Works.ownPath?_of_idle
    (hWorks : turn.Works now rest)
    (hIdle : turn.before.stage = .idle) :
    turn.after.ownPath? =
      if turn.talk.any Exchange.leavesSafeMode = true then
        none
      else
        turn.before.ownPath? := by
  have hSame : (turn.before.entering now).stage = .idle := hIdle
  have hWork := hWorks.work
  unfold Updater.work at hWork
  rw [hSame] at hWork
  simp only [Updater.idle, Talk.isSafeMode,
    Talk.resetToNormalMode, Dialogue.pure_eq_done,
    Dialogue.ask_bind, Dialogue.done_bind,
    Dialogue.unfolds_ask, Dialogue.unfolds_ite] at hWork
  rcases hWork with ⟨safeMode, rest, rfl, hSafe, hNormal⟩
  rw [hWorks.talk]
  cases safeMode with
  | true =>
      rcases hSafe rfl with ⟨_, _, rfl, _, _, rfl, hLeft⟩
      rw [Dialogue.unfolds_done] at hLeft
      rcases hLeft with ⟨rfl, hAfter⟩
      rw [hAfter]
      rfl
  | false =>
      have hStayed := hNormal Bool.false_ne_true
      rw [Dialogue.unfolds_done] at hStayed
      rcases hStayed with ⟨rfl, hAfter⟩
      rw [hAfter]
      rfl

/- Only at rest may the updater leave safe mode. -/
theorem Works.stays_in_mode
    (hWorks : turn.Works now rest)
    (hStage : turn.before.stage ≠ .idle) :
    turn.talk.any Exchange.leavesSafeMode = false := by
  have hAsks :
      ∀ exchange ∈ rest,
        exchange.question ≠ .resetToNormalMode := by
    intro exchange hMem hLeaves
    have hAsk :=
      hWorks.work.asks Updater.work_asks exchange hMem
    rw [hLeaves] at hAsk
    change Updater.MayAsk _ _ turn.before.stage _ at hAsk
    revert hStage hAsk
    cases turn.before.stage <;>
      simp [Updater.MayAsk, Updater.storing]
  rw [List.any_eq_false]
  refine
    hWorks.forall_talk Bool.false_ne_true Bool.false_ne_true ?_
  rintro ⟨question, answer⟩ hMem
  have hOther := hAsks _ hMem
  cases question with
  | resetToNormalMode => exact absurd rfl hOther
  | _ => exact Bool.false_ne_true

/- Work on a stage keeps the path, unless it is forgotten. -/
theorem Works.ownPath?_after
    (hWorks : turn.Works now rest) :
    turn.after.ownPath? =
      if turn.Forgets then none else turn.before.ownPath? := by
  have hNext := hWorks.mayBecome
  by_cases hIdle : turn.before.stage = .idle
  · rw [hWorks.ownPath?_of_idle hIdle]
    unfold Forgets
    simp [hIdle]
  · have hMode := hWorks.stays_in_mode hIdle
    by_cases hFinished : turn.before.stage = .finishedIdle
    · rw [hFinished] at hNext
      have hForgets : turn.Forgets := by
        left
        refine ⟨hFinished, ?_⟩
        rw [hNext]
        rfl
      rw [if_pos hForgets, hNext]
      rfl
    · have hKept : ¬ turn.Forgets := by
        unfold Forgets
        simp [hFinished, hMode]
      rw [if_neg hKept]
      exact
        (Updater.ownPath?_of_mayBecome hNext hIdle
          hFinished).trans (Updater.ownPath?_entering now)

/- Without work, the path is the one that was told, if any. -/
theorem Rests.ownPath?_after
    (hRests : turn.Rests)
    (hUnfolds :
      (turn.call.carryOut turn.before).Unfolds turn.talk
        (some turn.after)) :
    turn.after.ownPath? =
      turn.told?.getD turn.before.ownPath? := by
  by_cases hTick : turn.call = .tick
  · have hUntold : turn.told? = none := by
      unfold told?
      rw [hTick]
      rfl
    rw [hUntold, hRests.after_of_tick hTick hUnfolds]
    rfl
  · rcases Updater.unfolds_request hTick hUnfolds with
      hAccepted | ⟨hUntold, hAfter⟩
    · exact hAccepted.1
    · unfold told?
      rw [hUntold, hAfter]
      rfl

/- What a turn makes of the path of the caller. -/
theorem ownPath?_after
    (hUnfolds :
      (turn.call.carryOut turn.before).Unfolds turn.talk
        (some turn.after)) :
    turn.after.ownPath? = given turn.before.ownPath? turn := by
  unfold given
  rcases works_or_rests hUnfolds with
    ⟨now, rest, hWorks⟩ | hRests
  · have hUntold : turn.told? = none := by
      unfold told?
      rw [hWorks.tick]
      rfl
    rw [hUntold]
    exact hWorks.ownPath?_after
  · rw [hRests.ownPath?_after hUnfolds,
      if_neg hRests.not_forgets]
    cases turn.told? <;> rfl

/- If nothing is told, the path is kept until it is forgotten. -/
theorem foldl_given
    (hUntold : ∀ turn ∈ turns, turn.told? = none) :
    turns.foldl given own =
      if ∃ turn ∈ turns, turn.Forgets then none else own := by
  induction turns generalizing own with
  | nil => simp
  | cons turn turns ih =>
      rw [List.forall_mem_cons] at hUntold
      rw [List.foldl_cons, ih hUntold.2]
      unfold given
      rw [hUntold.1]
      by_cases hForgets : turn.Forgets
      · simp [hForgets]
      · simp [hForgets]

------------------------------------------------------------
-- Turns that Begin and End Runs
------------------------------------------------------------

/- A run ends when the updater comes to its rest. -/
def EndsRun
    (turn : Turn) : Prop :=
  turn.before.stage ≠ .idle ∧ turn.after.stage = .idle

instance
    (turn : Turn) :
    Decidable turn.EndsRun := by
  unfold EndsRun
  infer_instance

/- Only at rest is the caller told. -/
theorem EndsRun.untold
    (hEnds : turn.EndsRun) :
    turn.told? = none := by
  unfold told? Updater.Call.told?
  split
  · exact if_neg fun hTold => hEnds.1 hTold.2.2.1
  · exact if_neg fun hTold => hEnds.1 hTold.1
  · rfl
  · rfl

/- The updater leaves its rest only if a run begins. -/
theorem idle_or_begins
    (hUnfolds :
      (turn.call.carryOut turn.before).Unfolds turn.talk
        (some turn.after))
    (hIdle : turn.before.stage = .idle) :
    turn.after.stage = .idle ∨ turn.Begins := by
  rcases works_or_rests hUnfolds with
    ⟨now, rest, hWorks⟩ | hRests
  · have hNext := hWorks.mayBecome
    rw [hIdle] at hNext
    left
    rcases hNext with hNext | hNext
    · rw [hNext]
      exact hIdle
    · rw [hNext]
      exact hIdle
  · rcases hRests.spared.stage with hSame | hBegins
    · exact .inl (hSame.trans hIdle)
    · exact .inr hBegins

/- A run that begins while nothing is told was enabled. -/
theorem Begins.enabled
    (hBegins : turn.Begins)
    (hUnfolds :
      (turn.call.carryOut turn.before).Unfolds turn.talk
        (some turn.after))
    (hUntold : turn.told? = none) :
    turn.call = .enableUpdates := by
  rcases hBegins with ⟨hIdle, hQualify⟩
  have hMoved : turn.after.stage ≠ turn.before.stage := by
    rw [hIdle, hQualify]
    simp
  by_cases hTick : turn.call = .tick
  · rcases works_or_rests hUnfolds with
      ⟨now, rest, hWorks⟩ | hRests
    · exact absurd ⟨hIdle, hQualify⟩ hWorks.not_begins
    · have hAfter := hRests.after_of_tick hTick hUnfolds
      exact absurd (congrArg Updater.stage hAfter) hMoved
  · rcases Updater.unfolds_request hTick hUnfolds with
      ⟨-, hEnabled | hTold⟩ | ⟨-, hAfter⟩
    · exact hEnabled
    · change turn.told?.isSome = true at hTold
      rw [hUntold] at hTold
      cases hTold
    · exact absurd (congrArg Updater.stage hAfter) hMoved

end Turn

------------------------------------------------------------
-- Sessions
------------------------------------------------------------

/-
  All turns of a boot, from the updater that has started on.
  Unlike a run, a session goes on where another run begins.
-/
inductive Life.Session
    (s : Setting)
    (start : Updater) : List Turn → Life → Prop where
| boots
    {l l' : Life}
    (hBoots : l.Boots s l')
    (hUp : l'.updater = some start) :
    Session s start [] l'
| takes
    {turns : List Turn}
    {turn : Turn}
    {l l' : Life}
    (hSession : Session s start turns l)
    (hTakes : turn.Takes s l l') :
    Session s start (turns ++ [turn]) l'

namespace Life.Session

variable
  {s : Setting}
  {start u : Updater}
  {earlier later turns : List Turn}
  {turn last : Turn}
  {l : Life}

/- The last turn of a session is taken from the one before. -/
theorem exists_takes
    (hSession : l.Session s start (turns ++ [turn])) :
    ∃ l₀, l₀.Session s start turns ∧ turn.Takes s l₀ l := by
  generalize hTurns : turns ++ [turn] = all at hSession
  cases hSession with
  | boots hBoots hUp =>
      simp at hTurns
  | takes hBefore hTakes =>
      rw [List.append_singleton_inj] at hTurns
      rcases hTurns with ⟨rfl, rfl⟩
      exact ⟨_, hBefore, hTakes⟩

/- The path of the caller is the one that the session gives. -/
theorem ownPath?_eq
    (hSession : l.Session s start turns)
    (hUp : l.updater = some u) :
    u.ownPath? = turns.foldl Turn.given start.ownPath? := by
  induction hSession generalizing u with
  | boots hBoots hStart =>
      rw [hStart, Option.some_inj] at hUp
      rw [hUp]
      rfl
  | takes _ hTakes ih =>
      rw [hTakes.after, Option.some_inj] at hUp
      rw [← hUp, Turn.ownPath?_after hTakes.unfolds,
        ih hTakes.before, List.foldl_concat]

/- After the end of a run, the updater rests or another begins. -/
theorem idle_or_begins
    (hSession : l.Session s start (earlier ++ last :: later))
    (hEnds : last.EndsRun)
    (hUp : l.updater = some u) :
    u.stage = .idle ∨
      ∃ turn ∈ later, turn.Begins ∧
        (turn.call.carryOut turn.before).Unfolds turn.talk
          (some turn.after) := by
  induction later using List.reverseRecOn generalizing l u with
  | nil =>
      rcases hSession.exists_takes with ⟨l₀, -, hTakes⟩
      rw [hTakes.after, Option.some_inj] at hUp
      rw [← hUp]
      exact .inl hEnds.2
  | append_singleton later turn ih =>
      rw [← List.cons_append, ← List.append_assoc] at hSession
      rcases hSession.exists_takes with ⟨l₀, hBefore, hTakes⟩
      rcases ih hBefore hTakes.before with
        hIdle | ⟨other, hMem, hBegins⟩
      · rw [hTakes.after, Option.some_inj] at hUp
        rw [← hUp]
        rcases Turn.idle_or_begins hTakes.unfolds hIdle with
          hRests | hBegins
        · exact .inl hRests
        · exact
            .inr ⟨turn, by simp, hBegins, hTakes.unfolds⟩
      · exact
          .inr ⟨other, List.mem_append_left _ hMem, hBegins⟩

end Life.Session

end Fota
