import Fota.Proofs.Update.Attempts
import Fota.Proofs.Update.Replays
import Fota.Proofs.Update.Retries

/-
  This file shows that a run is a forward walk through the
  stages. A tick keeps the stage or goes on to a later one, but
  for two ways back and the way to rest. So a run publishes its
  start at most once and its result at most once, in this order,
  and sends no command once it has come to its end.

  Key definitions include:
    * `Stage.progress`
    * `Stage.Walks`
    * `Stage.finished`
    * `Failure.landing`
    * `Updater.Lands`
    * `Update.Orderly`

  The main statement is `Life.walks_forward`.
-/

namespace Fota

open Update (Event Exchange Question Script Setting Talk)

------------------------------------------------------------
-- Stages
------------------------------------------------------------

namespace Stage

/-
  A tick may take an updater from one stage to another: it stays
  or goes ahead, it qualifies again, it switches the modem off
  again, or the run is over.
-/
def Walks
    (stage next : Stage) : Prop :=
  next = stage ∨
    stage.code < next.code ∨
    (stage = qualifyRetry ∧ next = qualifyFlags) ∨
    (stage = finishedCloudConnecting ∧
      next = finishedPowerOff) ∨
    (stage ∈
        [qualifyFlags, qualifyModemOn, qualifyRetry,
          finishedIdle] ∧
      next = idle)

instance
    (stage next : Stage) :
    Decidable (stage.Walks next) := by
  unfold Walks
  infer_instance

/- The stages at the end of a run. -/
def finished : List Stage :=
  [finishedPowerOff, finishedPoweringOff,
    finishedCloudConnecting, finishedCloudConnected,
    finishedIdle]

/-
  How far a run has come. Stages between which it goes back and
  forth count alike, and its rest comes last.
-/
def progress : Stage → Nat
| qualifyFlags => 3
| qualifyModemOn => 3
| finishedPowerOff => 17
| finishedPoweringOff => 17
| idle => 20
| stage => stage.code.toNat

theorem progress_of_finished :
    ∀ stage ∈ finished,
      finishedPowerOff.progress ≤ stage.progress := by
  decide

theorem walks_of_mem_successors
    (stage : Stage) :
    ∀ next ∈ stage.successors, stage.Walks next := by
  cases stage <;> decide

theorem progress_le_of_mem_successors
    (stage : Stage) :
    ∀ next ∈ stage.successors,
      stage.progress ≤ next.progress := by
  cases stage <;> decide

end Stage

------------------------------------------------------------
-- Failures
------------------------------------------------------------

/- The stage in which a run that has failed goes on. -/
def Failure.landing : Failure → Stage
| installAtError => .finishedPowerOff
| startInstallTimeout => .finishedPowerOff
| sameVersion => .finishedPowerOff
| installTimeout => .finishedPowerOff
| _ => .finishedIdle

namespace Updater

variable
  {u w next : Updater}
  {now : Instant}
  {entered : Bool}

/-
  A failure that the updater has now, but did not have before,
  came with the move to the stage in which the run goes on.
-/
def Lands
    (u next : Updater) : Prop :=
  ∀ cause, next.status = .failed cause →
    u.status = .failed cause ∨
      (next.stage = cause.landing ∧ u.stage ≠ cause.landing)

theorem lands_of_status
    (hStatus : next.status = u.status) :
    u.Lands next := by
  intro cause hFailed
  exact .inl (hStatus.symm.trans hFailed)

theorem lands_fail
    {cause : Failure}
    {target : Stage}
    (hTarget : cause.landing = target)
    (hStage : u.stage ≠ target) :
    u.Lands (w.fail cause target) := by
  rintro other ⟨⟩
  rw [hTarget]
  exact .inr ⟨rfl, hStage⟩

theorem lands_waits
    {timeout : UInt32}
    {late early : Updater}
    (hLate : u.Lands late)
    (hEarly : u.Lands early) :
    u.Lands (u.waits now timeout late early) := by
  unfold waits
  split
  · exact hLate
  · exact hEarly

/- A wait that fails when it is too long. -/
theorem lands_waits_fail
    {timeout : UInt32}
    {cause : Failure}
    {target : Stage}
    {early : Updater}
    (hTarget : cause.landing = target)
    (hStage : u.stage ≠ target)
    (hEarly : early.status = u.status) :
    u.Lands (u.waits now timeout (w.fail cause target) early) :=
  lands_waits (lands_fail hTarget hStage)
    (lands_of_status hEarly)

/- A stage that fails in no way has no failure of its own. -/
theorem lands_of_keeps
    (hKeeps : u.Keeps u.stage next)
    (hNone : u.stage.failures = []) :
    u.Lands next := by
  intro cause hFailed
  left
  apply hKeeps.failure cause _ hFailed
  rw [hNone]
  exact List.not_mem_nil

theorem lands_publishRefused
    (hStage : u.stage = .setupCloudConnected) :
    u.Lands u.publishRefused := by
  dsimp only [publishRefused]
  split
  · exact lands_fail rfl (by simp [hStage])
  · exact lands_of_status rfl

theorem lands_setupRefused
    (hStage : u.stage = .downloadHttpsSetup) :
    u.Lands (u.setupRefused now) := by
  dsimp only [setupRefused]
  split
  · exact lands_fail rfl (by simp [hStage])
  · exact lands_of_status rfl

theorem lands_attemptLost
    (hStage : u.stage = .downloadReady) :
    u.Lands u.attemptLost := by
  dsimp only [attemptLost]
  split
  · exact lands_fail rfl (by simp [hStage])
  · exact lands_of_status rfl

theorem lands_exitDelayed
    (hStage : u.stage = .finishedCloudConnecting) :
    u.Lands u.exitDelayed := by
  dsimp only [exitDelayed]
  split
  · exact lands_fail rfl (by simp [hStage])
  · exact lands_of_status rfl

theorem lands_judged
    {version : UInt32}
    {complete : Bool}
    (hStage : u.stage = .installWaiting) :
    u.Lands (u.judged now version complete) := by
  unfold judged
  split
  · exact lands_fail rfl (by simp [hStage])
  · rintro cause ⟨⟩
  · exact lands_waits_fail rfl (by simp [hStage]) rfl

/- Work on a stage writes a failure only where it moves on. -/
theorem lands_of_mayBecome
    (hNext : u.MayBecome now entered u.stage next) :
    u.Lands next := by
  have hKeeps := keeps_of_mayBecome hNext
  cases hStage : u.stage <;> rw [hStage] at hNext
  case setupCloudConnecting =>
    rcases hNext with rfl | rfl
    · exact lands_of_status rfl
    · exact lands_waits_fail rfl (by simp [hStage]) rfl
  case setupCloudConnected =>
    rcases hNext with rfl | rfl
    · rintro cause ⟨⟩
    · exact lands_publishRefused hStage
  case downloadCellDisconnecting =>
    rcases hNext with rfl | rfl
    · exact lands_of_status rfl
    · exact lands_waits_fail rfl (by simp [hStage]) rfl
  case downloadCellConnecting =>
    rcases hNext with rfl | rfl
    · exact lands_of_status rfl
    · exact lands_waits_fail rfl (by simp [hStage]) rfl
  case downloadHttpsSetup =>
    rcases hNext with rfl | rfl
    · exact lands_of_status rfl
    · exact lands_setupRefused hStage
  case downloadReady =>
    simp only [MayBecome] at hNext
    cases hPending : u.time.pendingSince with
    | none =>
        rw [hPending] at hNext
        rcases hNext with rfl | rfl
        · exact lands_of_status rfl
        · exact lands_attemptLost hStage
    | some since =>
        rw [hPending] at hNext
        rcases hNext with rfl | rfl | ⟨_, rfl⟩
        · exact lands_of_status rfl
        · exact lands_attemptLost hStage
        · exact lands_of_status rfl
  case installCellDisconnecting =>
    rcases hNext with rfl | rfl
    · exact lands_of_status rfl
    · exact lands_waits_fail rfl (by simp [hStage]) rfl
  case installStarting =>
    cases entered with
    | true =>
        rcases hNext with ⟨version, rfl | rfl⟩
        · exact lands_fail rfl (by simp [hStage])
        · exact lands_of_status rfl
    | false =>
        rcases hNext with rfl | rfl
        · rintro cause ⟨⟩
        · exact lands_waits_fail rfl (by simp [hStage]) rfl
  case installWaiting =>
    cases entered with
    | true =>
        cases hNext
        exact lands_of_status rfl
    | false =>
        rcases hNext with ⟨version, complete, rfl⟩
        exact lands_judged hStage
  case finishedPoweringOff =>
    rcases hNext with rfl | rfl
    · exact lands_of_status rfl
    · exact lands_waits_fail rfl (by simp [hStage]) rfl
  case finishedCloudConnecting =>
    rcases hNext with rfl | rfl
    · exact lands_of_status rfl
    · exact
        lands_waits (lands_exitDelayed hStage)
          (lands_of_status rfl)
  case finishedCloudConnected =>
    rcases hNext with rfl | rfl
    · exact lands_of_status rfl
    · exact lands_fail rfl (by simp [hStage])
  all_goals
    exact lands_of_keeps hKeeps (by simp [hStage])

end Updater

------------------------------------------------------------
-- Published Events
------------------------------------------------------------

namespace Update

/- The cloud was told how a run ended. -/
def Exchange.isResultPublished : Exchange → Bool
| ⟨.publish .success, published⟩ => published
| ⟨.publish .failed, published⟩ => published
| _ => false

/- A command was sent to the modem. -/
def Exchange.isCommand : Exchange → Bool
| ⟨.command _, _⟩ => true
| _ => false

/-
  In a talk, a start and a result were published at most once
  each, and no start was published after a result.
-/
structure Orderly
    (talk : List Exchange) : Prop where
  starts : talk.countP Exchange.isStartPublished ≤ 1
  results : talk.countP Exchange.isResultPublished ≤ 1
  order :
    talk.Pairwise
      (fun earlier later =>
        earlier.isResultPublished = true →
          later.isStartPublished = false)

theorem Orderly.sublist
    {part talk : List Exchange}
    (hOrderly : Orderly talk)
    (hPart : part.Sublist talk) :
    Orderly part :=
  ⟨Nat.le_trans hPart.countP_le hOrderly.starts,
    Nat.le_trans hPart.countP_le hOrderly.results,
    hOrderly.order.sublist hPart⟩

end Update

/- The events of which a run publishes at most one. -/
inductive Milestone where
| start
| result
deriving DecidableEq, Repr

namespace Milestone

/- The cloud was told of it. -/
def published : Milestone → Exchange → Bool
| start => Exchange.isStartPublished
| result => Exchange.isResultPublished

/- The stage in which it is published. -/
def stage : Milestone → Stage
| start => .setupCloudConnected
| result => .finishedCloudConnected

end Milestone

namespace Milestone

variable
  {m : Milestone}
  {u : Updater}
  {event : Event}
  {talk : List Exchange}

/- An event tells of one milestone at most, if it is heard. -/
theorem countP_published_le
    {published : Bool}
    (hUnfolds :
      (Talk.publish event).Unfolds talk (some published)) :
    talk.countP m.published ≤ 1 ∧
      (0 < talk.countP m.published → published = true) := by
  rcases Update.talk_of_publish hUnfolds with
    ⟨rfl, rfl⟩ | rfl
  · cases m <;> decide
  · cases m <;> cases event <;> cases published <;> decide

/- A milestone is published as an event. -/
theorem exists_publish
    {exchange : Exchange}
    (hPublished : m.published exchange = true) :
    ∃ event, exchange.question = .publish event := by
  rcases exchange with ⟨question, answer⟩
  cases question with
  | publish event =>
      exact ⟨event, rfl⟩
  | _ =>
      cases m <;> cases hPublished

/- What is published in a stage, if anything is. -/
theorem publish_of_mayAsk
    {entered : Bool}
    {stage : Stage}
    (hAsk : u.MayAsk entered stage (.publish event)) :
    stage = .setupCloudConnected ∧ event = .started ∨
      stage = .finishedCloudConnected ∧
        event = Updater.resultEvent u.status := by
  cases stage <;>
    simp [Updater.MayAsk, Updater.storing] at hAsk
  case setupCloudConnected =>
    exact .inl ⟨rfl, hAsk⟩
  case finishedCloudConnected =>
    exact .inr ⟨rfl, hAsk⟩

/- Each milestone is published in one stage only. -/
theorem stage_of_mayAsk
    {entered : Bool}
    {stage : Stage}
    {exchange : Exchange}
    (hPublished : m.published exchange = true)
    (hAsk : u.MayAsk entered stage exchange.question) :
    stage = m.stage := by
  rcases exchange with ⟨question, answer⟩
  cases question with
  | publish event =>
      have hResult :
          Updater.resultEvent u.status ≠ .started := by
        unfold Updater.resultEvent
        split <;> simp
      rcases publish_of_mayAsk hAsk with
        ⟨rfl, rfl⟩ | ⟨rfl, hEvent⟩
      · cases m
        · rfl
        · cases hPublished
      · cases m
        · cases event
          · exact absurd hEvent.symm hResult
          · cases hPublished
          · cases hPublished
        · rfl
  | _ =>
      cases m <;> cases hPublished

end Milestone

/- The end of a run is published, or that fails. -/
theorem Updater.finishedCloudConnected_eq
    {u : Updater} :
    u.finishedCloudConnected =
      Talk.publish (resultEvent u.status) >>= fun published =>
        .done
          (if published then
            u.moveTo .finishedIdle
          else
            u.fail .publishResult .finishedIdle) := by
  unfold finishedCloudConnected
  congr 1
  funext published
  exact (apply_ite Dialogue.done _ _ _).symm

------------------------------------------------------------
-- Turns
------------------------------------------------------------

namespace Turn

variable
  {turn : Turn}
  {now : Instant}
  {rest : List Exchange}

/- Work goes on to a successor, or keeps the stage. -/
theorem Works.next_stage
    (hWorks : turn.Works now rest) :
    turn.after.stage = turn.before.stage ∨
      turn.after.stage ∈ turn.before.stage.successors := by
  rcases hWorks.edge with
    ⟨hSame, _⟩ | ⟨hMem, _⟩ | ⟨hModemOn, hTaken⟩
  · exact .inl hSame
  · exact .inr hMem
  · right
    change turn.before.stage = _ at hModemOn
    rw [hModemOn, hTaken]
    simp

theorem Works.walks
    (hWorks : turn.Works now rest) :
    turn.before.stage.Walks turn.after.stage := by
  rcases hWorks.next_stage with hSame | hMem
  · exact .inl hSame
  · exact Stage.walks_of_mem_successors _ _ hMem

theorem Works.progress_le
    (hWorks : turn.Works now rest) :
    turn.before.stage.progress ≤ turn.after.stage.progress := by
  rcases hWorks.next_stage with hSame | hMem
  · rw [hSame]
  · exact Stage.progress_le_of_mem_successors _ _ hMem

theorem Works.lands
    (hWorks : turn.Works now rest) :
    turn.before.Lands turn.after := by
  have hLands : (turn.before.entering now).Lands turn.after :=
    Updater.lands_of_mayBecome hWorks.mayBecome
  exact hLands

/-
  In the turn, a milestone is published once at most. If it is,
  the updater leaves its stage for one ahead.
-/
structure Publishes
    (m : Milestone)
    (turn : Turn) : Prop where
  count : turn.talk.countP m.published ≤ 1
  before :
    0 < turn.talk.countP m.published →
      turn.before.stage = m.stage
  after :
    0 < turn.talk.countP m.published →
      m.stage.progress < turn.after.stage.progress

theorem publishes_of_silent
    {m : Milestone}
    (hSilent : turn.talk.countP m.published = 0) :
    turn.Publishes m := by
  constructor <;> omega

theorem Rests.publishes
    (hRests : turn.Rests)
    (m : Milestone) :
    turn.Publishes m := by
  apply publishes_of_silent
  rw [List.countP_eq_zero]
  intro exchange hMem hPublished
  rcases m.exists_publish hPublished with ⟨event, hEvent⟩
  have hQuiet := hRests.quiet _ hMem
  rw [hEvent] at hQuiet
  simp [Updater.quietQuestions, Updater.requestQuestions]
    at hQuiet

theorem Works.countP_published
    (hWorks : turn.Works now rest)
    (m : Milestone) :
    turn.talk.countP m.published = rest.countP m.published := by
  rw [hWorks.talk]
  cases m <;> rfl

/- Work that is to publish an event goes on once it has. -/
theorem Works.publishes_of_work
    {m : Milestone}
    {event : Event}
    {next : Bool → Updater}
    (hWorks : turn.Works now rest)
    (hStage : turn.before.stage = m.stage)
    (hWork :
      (Talk.publish event >>= fun published =>
        .done (next published) : Talk Updater).Unfolds rest
          (some turn.after))
    (hAhead : m.stage.progress < (next true).stage.progress) :
    turn.Publishes m := by
  rw [Dialogue.unfolds_bind] at hWork
  rcases hWork with
    ⟨published, first, second, rfl, hPublish, hNext⟩
  rw [Dialogue.unfolds_done] at hNext
  rcases hNext with ⟨rfl, hAfter⟩
  have hCount := m.countP_published_le hPublish
  have hTalk := hWorks.countP_published m
  rw [List.append_nil] at hTalk
  rw [← hTalk] at hCount
  refine ⟨hCount.1, fun _ => hStage, ?_⟩
  intro hSome
  rw [hAfter, hCount.2 hSome]
  exact hAhead

theorem Works.publishes
    (hWorks : turn.Works now rest)
    (m : Milestone) :
    turn.Publishes m := by
  by_cases hStage : turn.before.stage = m.stage
  · have hSame : (turn.before.entering now).stage = _ := hStage
    have hWork := hWorks.work
    unfold Updater.work at hWork
    rw [hSame] at hWork
    cases m with
    | start =>
        rw [Milestone.stage, Updater.setupCloudConnected_eq]
          at hWork
        apply hWorks.publishes_of_work hStage hWork
        rw [if_pos rfl, Updater.stage_moveTo]
        decide
    | result =>
        rw [Milestone.stage, Updater.finishedCloudConnected_eq]
          at hWork
        apply hWorks.publishes_of_work hStage hWork
        rw [if_pos rfl, Updater.stage_moveTo]
        decide
  · apply publishes_of_silent
    rw [hWorks.countP_published, List.countP_eq_zero]
    intro exchange hMem hPublished
    have hAsk := hWorks.work.asks Updater.work_asks _ hMem
    exact hStage (Milestone.stage_of_mayAsk hPublished hAsk)

end Turn

/- A command is sent before a run comes to its end. -/
theorem Updater.progress_of_command
    {call : Call}
    {u : Updater}
    {command : Command}
    (hAsk : call.MayAsk u (.command command)) :
    u.stage.progress < Stage.finishedPowerOff.progress := by
  cases call with
  | tick =>
      rcases hAsk with hAsk | hAsk | hAsk
      · cases hAsk
      · cases hAsk
      · revert hAsk
        cases u.stage <;>
          simp [MayAsk, storing, Stage.progress, Stage.code]
  | _ =>
      simp [Call.MayAsk, requestQuestions] at hAsk

------------------------------------------------------------
-- Runs
------------------------------------------------------------

/-
  A run that has published what it said has done so in order,
  and is beyond the stages in which it did.
-/
structure Updater.Walked
    (talk : List Exchange)
    (u : Updater) : Prop where
  orderly : Update.Orderly talk
  beyond :
    ∀ m : Milestone, 0 < talk.countP m.published →
      m.stage.progress < u.stage.progress

theorem Update.Orderly.count
    {talk : List Exchange}
    (hOrderly : Orderly talk)
    (m : Milestone) :
    talk.countP m.published ≤ 1 := by
  cases m with
  | start => exact hOrderly.starts
  | result => exact hOrderly.results

namespace Turn

variable
  {turn : Turn}
  {talk : List Exchange}

/- What was published before the turn is not published in it. -/
theorem silent_of_published
    {m : Milestone}
    (hWalked : turn.before.Walked talk)
    (hPublishes : turn.Publishes m)
    (hBefore : 0 < talk.countP m.published) :
    turn.talk.countP m.published = 0 := by
  have hBeyond := hWalked.beyond m hBefore
  by_contra hSome
  rw [hPublishes.before (by omega)] at hBeyond
  exact Nat.lt_irrefl _ hBeyond

/- A turn goes on with a talk that is in order. -/
theorem orderly_append
    (hWalked : turn.before.Walked talk)
    (hPublishes : ∀ m, turn.Publishes m) :
    Update.Orderly (talk ++ turn.talk) := by
  have hCount :
      ∀ m : Milestone,
        (talk ++ turn.talk).countP m.published ≤ 1 := by
    intro m
    have hTalk := hWalked.orderly.count m
    have hTurn := (hPublishes m).count
    have hSilent := silent_of_published hWalked (hPublishes m)
    rw [List.countP_append]
    omega
  have hStart :
      ∀ exchange ∈ turn.talk,
        exchange.isStartPublished = true →
          turn.before.stage = .setupCloudConnected := by
    intro exchange hMem hStarts
    apply (hPublishes .start).before
    exact List.countP_pos_iff.mpr ⟨exchange, hMem, hStarts⟩
  refine ⟨hCount .start, hCount .result, ?_⟩
  rw [List.pairwise_append]
  refine ⟨hWalked.orderly.order, ?_, ?_⟩
  · apply List.pairwise_of_forall_mem_list
    intro earlier hEarlier later hLater hResult
    by_contra hStarts
    have hBefore :=
      (hPublishes .result).before
        (List.countP_pos_iff.mpr ⟨earlier, hEarlier, hResult⟩)
    rw [hStart later hLater (by simpa using hStarts)] at hBefore
    cases hBefore
  · intro earlier hEarlier later hLater hResult
    by_contra hStarts
    have hBeyond :=
      hWalked.beyond .result
        (List.countP_pos_iff.mpr ⟨earlier, hEarlier, hResult⟩)
    rw [hStart later hLater (by simpa using hStarts)] at hBeyond
    exact absurd hBeyond (by decide)

/- What a turn has published is behind it. -/
theorem walked_append
    (hWalked : turn.before.Walked talk)
    (hPublishes : ∀ m, turn.Publishes m)
    (hProgress :
      turn.before.stage.progress ≤ turn.after.stage.progress) :
    turn.after.Walked (talk ++ turn.talk) := by
  refine ⟨orderly_append hWalked hPublishes, ?_⟩
  intro m hSome
  rw [List.countP_append] at hSome
  by_cases hBefore : 0 < talk.countP m.published
  · exact
      Nat.lt_of_lt_of_le (hWalked.beyond m hBefore) hProgress
  · exact (hPublishes m).after (by omega)

end Turn

namespace Life

variable
  {s : Setting}
  {turns : List Turn}
  {l l' : Life}
  {call : Updater.Call}
  {talk : List Exchange}

/- A run publishes in order. -/
theorem Run.walked
    (hRun : l.Run s turns) :
    ∀ u ∈ l.updater, u.Walked (Turn.said turns) := by
  refine
    hRun.follows (fun turns u => u.Walked (Turn.said turns))
      ?_ ?_ ?_
  · intro u _
    refine ⟨⟨Nat.zero_le _, Nat.zero_le _, .nil⟩, ?_⟩
    intro m hSome
    cases hSome
  · intro turns turn hRests hAlike hWalked
    rw [Turn.said_concat]
    apply Turn.walked_append hWalked hRests.publishes
    rw [hAlike.stage]
  · intro turns turn now rest hWorks hWalked
    rw [Turn.said_concat]
    exact
      Turn.walked_append hWalked hWorks.publishes
        hWorks.progress_le

/- A run never falls back behind a stage at which it was. -/
theorem Run.progress_le
    (hRun : l.Run s turns) :
    ∀ u ∈ l.updater, ∀ turn ∈ turns,
      turn.before.stage.progress ≤ u.stage.progress := by
  refine
    hRun.follows
      (fun turns u => ∀ turn ∈ turns,
        turn.before.stage.progress ≤ u.stage.progress)
      ?_ ?_ ?_
  · intro u _ turn hMem
    cases hMem
  · intro turns turn hRests hAlike ih other hMem
    rw [hAlike.stage]
    rcases List.mem_append.mp hMem with hMem | hMem
    · exact ih other hMem
    · rw [List.mem_singleton.mp hMem]
  · intro turns turn now rest hWorks ih other hMem
    apply Nat.le_trans _ hWorks.progress_le
    rcases List.mem_append.mp hMem with hMem | hMem
    · exact ih other hMem
    · rw [List.mem_singleton.mp hMem]

/- A tick that comes back walks, and lands where it fails. -/
theorem walks_of_calls
    {u next : Updater}
    (hCalls : l.Calls s .tick l')
    (hUp : l.updater = some u)
    (hNext : l'.updater = some next) :
    u.stage.Walks next.stage ∧ u.Lands next := by
  rcases Turn.exists_takes hCalls hNext with
    ⟨turn, hTick, hTakes⟩
  have hBefore := hTakes.before.symm.trans hUp
  have hAfter := hTakes.after.symm.trans hNext
  cases hBefore
  cases hAfter
  rcases Turn.works_or_rests hTakes.unfolds with
    ⟨now, rest, hWorks⟩ | hRests
  · exact ⟨hWorks.walks, hWorks.lands⟩
  · rw [hRests.after_of_tick hTick hTakes.unfolds]
    exact ⟨.inl rfl, Updater.lands_of_status rfl⟩

/- What is said in any call goes on with a run in order. -/
theorem Run.orderly
    (hRun : l.Run s turns)
    (hCalls : l.Calls s call l')
    (hTalk :
      l'.course.exchanges = l.course.exchanges ++ talk) :
    Update.Orderly (Turn.said turns ++ talk) := by
  rcases Turn.exists_whole hCalls hTalk with
    ⟨turn, hUp, hPart, hUnfolds⟩
  have hWalked := hRun.walked turn.before hUp
  have hWhole :
      Update.Orderly (Turn.said turns ++ turn.talk) := by
    apply Turn.orderly_append hWalked
    rcases Turn.works_or_rests hUnfolds with
      ⟨now, rest, hWorks⟩ | hRests
    · exact hWorks.publishes
    · exact hRests.publishes
  exact
    hWhole.sublist
      ((List.prefix_append_right_inj _).mpr hPart).sublist

/- Once a run has come to its end, no command is sent. -/
theorem Run.silent_of_finished
    {u : Updater}
    (hRun : l.Run s turns)
    (hCalls : l.Calls s call l')
    (hTalk :
      l'.course.exchanges = l.course.exchanges ++ talk)
    (hUp : l.updater = some u)
    (hFinished :
      u.stage ∈ Stage.finished ∨
        ∃ turn ∈ turns,
          turn.before.stage ∈ Stage.finished) :
    ∀ exchange ∈ talk, exchange.isCommand = false := by
  have hEnd :
      Stage.finishedPowerOff.progress ≤ u.stage.progress := by
    rcases hFinished with hHere | ⟨turn, hMem, hBefore⟩
    · exact Stage.progress_of_finished _ hHere
    · apply Nat.le_trans (Stage.progress_of_finished _ hBefore)
      exact hRun.progress_le u hUp turn hMem
  rcases Turn.exists_whole hCalls hTalk with
    ⟨turn, hBefore, hPart, hUnfolds⟩
  cases hBefore.symm.trans hUp
  rintro ⟨question, answer⟩ hMem
  have hAsk :=
    hUnfolds.asks (Updater.carryOut_asks turn.call) _
      (hPart.mem hMem)
  cases question with
  | command command =>
      have hEarly := Updater.progress_of_command hAsk
      omega
  | _ =>
      rfl

/- A start publishes nothing and sends no command. -/
theorem Boots.silent
    (hBoots : l.Boots s l') :
    ∀ exchange ∈ l'.course.exchanges,
      exchange.isStartPublished = false ∧
        exchange.isResultPublished = false ∧
          exchange.isCommand = false := by
  rcases hBoots.mayAsk with ⟨slot, hAsks⟩
  rintro ⟨question, answer⟩ hMem
  rcases List.mem_filterMap.mp hMem with
    ⟨happening, hPast, hExchange⟩
  rw [Update.Happening.eq_asked_of_exchange hExchange] at hPast
  rcases hAsks question answer hPast with
    hListed | ⟨stored, _, _, hListed⟩
  · simp only [List.mem_cons, List.not_mem_nil, or_false]
      at hListed
    rcases hListed with rfl | rfl | rfl | rfl <;>
      exact ⟨rfl, rfl, rfl⟩
  · simp only [List.mem_cons, List.not_mem_nil, or_false]
      at hListed
    rcases hListed with rfl | rfl <;> exact ⟨rfl, rfl, rfl⟩

/-
  A run is a forward walk. A tick keeps the stage or goes ahead,
  but for the ways back, and a failure comes with the move to
  the end of the run. Whatever is said in the run, also in a call
  that is cut off, is published in order; and once the run has
  come to its end, no command is sent. The start of a boot, with
  which a run may begin, does neither.
-/
theorem walks_forward
    (hRun : l.Run s turns)
    (hCalls : l.Calls s call l')
    (hTalk :
      l'.course.exchanges = l.course.exchanges ++ talk) :
    (call = .tick →
      ∀ u ∈ l.updater, ∀ next ∈ l'.updater,
        u.stage.Walks next.stage ∧ u.Lands next) ∧
      Update.Orderly (Turn.said turns ++ talk) ∧
        ((∃ u ∈ l.updater,
            u.stage ∈ Stage.finished ∨
              ∃ turn ∈ turns,
                turn.before.stage ∈ Stage.finished) →
          ∀ exchange ∈ talk, exchange.isCommand = false) ∧
          ∀ before started : Life, before.Boots s started →
            ∀ exchange ∈ started.course.exchanges,
              exchange.isStartPublished = false ∧
                exchange.isResultPublished = false ∧
                  exchange.isCommand = false := by
  refine ⟨?_, hRun.orderly hCalls hTalk, ?_, ?_⟩
  · rintro rfl u hUp next hNext
    exact walks_of_calls hCalls hUp hNext
  · rintro ⟨u, hUp, hFinished⟩
    exact hRun.silent_of_finished hCalls hTalk hUp hFinished
  · intro before started hBoots
    exact hBoots.silent

end Life

/- The smooth script, but for a modem that is found off. -/
def Update.Script.unpowered : Script where
  notices := Script.smooth.notices
  answer c
  | .networkPower => .off
  | question => Script.smooth.answer c question

/- A run with an install of which nothing is heard. -/
def Replay.unpowered
    (count : Nat) : Replay :=
  (start .smooth .standard true (Life.qualified 2)).ticks
    .unpowered count

/-
  When such a run publishes that it has failed, this is its only
  result, and its start was published before.
-/
theorem Life.walks_forward_on_unheard_install :
    ∃ turn ∈ (Replay.unpowered 18).turn? .unpowered .tick,
      let talk :=
        Turn.said (Replay.unpowered 18).turns ++ turn.talk
      talk.countP Exchange.isStartPublished = 1 ∧
        talk.countP Exchange.isResultPublished = 1 ∧
          Update.Orderly talk ∧
            turn.before.stage.Walks turn.after.stage ∧
              ∀ exchange ∈ turn.talk,
                exchange.isCommand = false := by
  have hMoment :
      ∃ turn ∈ (Replay.unpowered 18).turn? .unpowered .tick,
        turn.before.stage ∈ Stage.finished ∧
          (Turn.said (Replay.unpowered 18).turns ++
              turn.talk).countP
            Exchange.isStartPublished = 1 ∧
            (Turn.said (Replay.unpowered 18).turns ++
                turn.talk).countP
              Exchange.isResultPublished = 1 := by
    decide +kernel
  rcases hMoment with
    ⟨turn, hTurn, hFinished, hStarts, hResults⟩
  have hRun : (Replay.unpowered 18).Sound :=
    (Replay.sound_start _ _ _).ticks 18
  have hTakes := Replay.takes_next hTurn
  have hCalls :
      (Replay.unpowered 18).life.Calls .board .tick
        ((Replay.unpowered 18).next .unpowered .tick) :=
    calls_perform .tick hTakes.before
  rcases walks_forward hRun hCalls hTakes.talk with
    ⟨hWalks, hOrderly, hSilent, -⟩
  refine ⟨turn, hTurn, hStarts, hResults, hOrderly, ?_, ?_⟩
  · exact (hWalks rfl _ hTakes.before _ hTakes.after).1
  · exact hSilent ⟨_, hTakes.before, .inl hFinished⟩

end Fota
