import Fota.Proofs.Dialogue.Transcripts
import Fota.Proofs.Update.Calls
import Mathlib.Data.List.DropRight

/-
  This file defines the turns of an updater, which are its calls
  that came back, and its runs: the turns of one boot since the
  updater was started or left its rest. What a turn did is read
  off what was asked and answered in it.

  Key definitions include:
    * `Update.Exchange`
    * `Turn`
    * `Turn.workedAt?`
    * `Turn.Takes`
    * `Turn.Works`
    * `Turn.Rests`
    * `Life.Run`
    * `Turn.firstWork?`

  The main statements are `Turn.works_or_rests`, the induction
  over runs in its forms `Life.Run.invariant` and
  `Life.Run.follows`, and `Life.Run.enteredAt`.
-/

namespace Fota

open Update (Course Happening Question Setting Talk)

------------------------------------------------------------
-- Exchanges
------------------------------------------------------------

namespace Update

/- A question of the updater that was answered. -/
abbrev Exchange :=
  Dialogue.Exchange Question Answer

/- The reading of the clock, if that was asked for. -/
def Exchange.clock? : Exchange → Option Instant
| ⟨.now, t⟩ => some t
| _ => none

/- What was asked and answered, unless a notice has arrived. -/
def Happening.exchange? : Happening → Option Exchange
| notice _ => none
| asked question answer => some ⟨question, answer⟩

theorem Happening.eq_asked_of_exchange
    {happening : Happening}
    {question : Question}
    {answer : Answer question}
    (hExchange :
      happening.exchange? = some ⟨question, answer⟩) :
    happening = .asked question answer := by
  cases happening with
  | notice line =>
      cases hExchange
  | asked other answer' =>
      cases hExchange
      rfl

/- Each question has an answer. -/
theorem nonempty_answer
    (question : Question) :
    Nonempty (Answer question) := by
  cases question with
  | command _ => exact ⟨⟨.ok, []⟩⟩
  | networkPower => exact ⟨.on⟩
  | now => exact ⟨⟨0⟩⟩
  | modemFamily => exact ⟨.unknown⟩
  | load _ => exact ⟨.ok []⟩
  | _ =>
      first
      | exact ⟨()⟩
      | exact ⟨true⟩
      | exact ⟨none⟩
      | exact ⟨.ok ()⟩

namespace Course

/- What was asked and answered in this boot, in order. -/
def exchanges
    (c : Course) : List Exchange :=
  c.past.filterMap Happening.exchange?

/- Each question that is answered is an exchange. -/
theorem exchanges_of_goes
    {s : Setting}
    {c c' : Course}
    {question : Question}
    {answer : Answer question}
    (hGoes : goes s c question answer c') :
    c'.exchanges = c.exchanges ++ [⟨question, answer⟩] := by
  rcases past_of_goes hGoes with ⟨lines, hPast⟩
  have hQuiet :
      (lines.map Happening.notice).filterMap
        Happening.exchange? = [] := by
    rw [List.filterMap_eq_nil_iff]
    intro happening hMem
    rcases List.mem_map.mp hMem with ⟨line, _, rfl⟩
    rfl
  unfold exchanges
  rw [hPast, List.filterMap_append, List.filterMap_append,
    hQuiet, List.append_nil]
  rfl

/- What a course has added to the talk is its transcript. -/
theorem unfolds_of_leads
    {s : Setting}
    {c c' : Course}
    {d : Talk Updater}
    {result : Option Updater}
    (hLeads : d.Leads (goes s) c result c') :
    ∃ talk, d.Unfolds talk result ∧
      c'.exchanges = c.exchanges ++ talk := by
  apply hLeads.unfolds
  intro c question answer c' hGoes
  exact exchanges_of_goes hGoes

end Course

end Update

open Update (Exchange)

------------------------------------------------------------
-- Turns
------------------------------------------------------------

/-
  A call of an updater that came back: the updater before and
  after it, and what was asked and answered in between.
-/
structure Turn where
  call : Updater.Call
  before : Updater
  talk : List Exchange
  after : Updater

namespace Turn

/-
  The reading of the clock at which the updater worked on its
  stage; none if the call was no tick, or gated by a cooldown.
-/
def workedAt?
    (turn : Turn) : Option Instant :=
  match turn.call with
  | .tick =>
      (turn.talk.findSome? Exchange.clock?).filter
        (fun now =>
          (Cooldown.update now turn.before.cooldown).isNone)
  | _ => none

/- A run begins when the updater leaves its rest. -/
def Begins
    (turn : Turn) : Prop :=
  turn.before.stage = .idle ∧ turn.after.stage = .qualifyFlags

instance
    (turn : Turn) :
    Decidable turn.Begins := by
  unfold Begins
  infer_instance

/- The turn takes a device from one moment to another. -/
structure Takes
    (s : Setting)
    (turn : Turn)
    (l l' : Life) : Prop where
  before : l.updater = some turn.before
  leads :
    (turn.call.carryOut turn.before).Leads (Course.goes s)
      l.course (some turn.after) l'.course
  after : l'.updater = some turn.after
  talk : l'.course.exchanges = l.course.exchanges ++ turn.talk

variable
  {s : Setting}
  {turn : Turn}
  {l l' : Life}

/- The talk of a turn is a transcript of its call. -/
theorem Takes.unfolds
    (hTakes : turn.Takes s l l') :
    (turn.call.carryOut turn.before).Unfolds turn.talk
      (some turn.after) := by
  rcases Update.Course.unfolds_of_leads hTakes.leads with
    ⟨talk, hUnfolds, hTalk⟩
  rw [hTakes.talk] at hTalk
  rw [List.append_cancel_left hTalk]
  exact hUnfolds

/- What happens in a turn is added, and told by its talk. -/
theorem Takes.exists_added
    (hTakes : turn.Takes s l l') :
    ∃ added, l'.course.past = l.course.past ++ added ∧
      turn.talk = added.filterMap Happening.exchange? := by
  have hKept :
      ∀ c question answer c', True →
        l.course.AsksOnly (fun _ => True) c →
        Course.goes s c question answer c' →
        l.course.AsksOnly (fun _ => True) c' := by
    intro c question answer c' hTrue hOnly hGoes
    exact Course.asksOnly_of_goes hTrue hOnly hGoes
  rcases hTakes.leads.keeps (Dialogue.asks_true _) hKept
    (Course.asksOnly_refl _ _) with ⟨added, hPast, _⟩
  refine ⟨added, hPast, ?_⟩
  have hTalk := hTakes.talk
  unfold Update.Course.exchanges at hTalk
  rw [hPast, List.filterMap_append] at hTalk
  exact (List.append_cancel_left hTalk).symm

/- A call that came back is a turn. -/
theorem exists_takes
    {call : Updater.Call}
    {next : Updater}
    (hCalls : l.Calls s call l')
    (hNext : l'.updater = some next) :
    ∃ turn : Turn, turn.call = call ∧ turn.Takes s l l' := by
  rcases hCalls with ⟨u, hMem, hLeads⟩
  rcases Update.Course.unfolds_of_leads hLeads with
    ⟨talk, hUnfolds, hTalk⟩
  rw [hNext] at hLeads
  exact
    ⟨⟨call, u, talk, next⟩, rfl, hMem, hLeads, hNext, hTalk⟩

/- Any call is the beginning of one that may come back. -/
theorem exists_whole
    {call : Updater.Call}
    {talk : List Exchange}
    (hCalls : l.Calls s call l')
    (hTalk :
      l'.course.exchanges = l.course.exchanges ++ talk) :
    ∃ turn : Turn,
      l.updater = some turn.before ∧
        talk <+: turn.talk ∧
        (turn.call.carryOut turn.before).Unfolds turn.talk
          (some turn.after) := by
  rcases hCalls with ⟨u, hMem, hLeads⟩
  rcases Update.Course.unfolds_of_leads hLeads with
    ⟨said, hUnfolds, hSaid⟩
  rw [hTalk] at hSaid
  rw [← List.append_cancel_left hSaid] at hUnfolds
  rcases hUnfolds.exists_end Update.nonempty_answer with
    ⟨rest, next, hEnd⟩
  exact
    ⟨⟨call, u, talk ++ rest, next⟩, hMem,
      List.prefix_append _ _, hEnd⟩

------------------------------------------------------------
-- Work and Rest
------------------------------------------------------------

/-
  In the turn, the updater worked on its stage at a reading of
  the clock. It had looked for notices and at the clock before.
-/
structure Works
    (turn : Turn)
    (now : Instant)
    (rest : List Exchange) : Prop where
  tick : turn.call = .tick
  worked : turn.workedAt? = some now
  talk :
    turn.talk =
      ⟨.hearNotices, ()⟩ :: ⟨.now, now⟩ :: rest
  work :
    ((turn.before.entering now).work now
      turn.before.time.enteredAt.isNone).Unfolds rest
        (some turn.after)

/-
  In the turn, the updater did not work on its stage: the tick
  was gated, or the call was a request.
-/
structure Rests
    (turn : Turn) : Prop where
  idle : turn.workedAt? = none
  quiet :
    ∀ exchange ∈ turn.talk,
      exchange.question ∈ Updater.quietQuestions
  kept : turn.before.Requested turn.after

/- A tick is refused, gated by a cooldown, or works. -/
theorem unfolds_tick
    {u next : Updater}
    {talk : List Exchange}
    (hUnfolds :
      (Updater.Call.tick.carryOut u).Unfolds talk
        (some next)) :
    (u.started = false ∧ talk = [] ∧ next = u) ∨
      ∃ now rest,
        talk =
          ⟨.hearNotices, ()⟩ :: ⟨.now, now⟩ :: rest ∧
        ((∃ cooldown,
            Cooldown.update now u.cooldown = some cooldown ∧
              rest = [] ∧ next = u) ∨
          (Cooldown.update now u.cooldown = none ∧
            ((u.entering now).work now
              u.time.enteredAt.isNone).Unfolds rest
                (some next))) := by
  unfold Updater.Call.carryOut Updater.Call.talk Updater.tick
    at hUnfolds
  by_cases hStarted : u.started = true
  · rw [if_neg (not_not_intro hStarted)] at hUnfolds
    simp only [Talk.hearNotices, Talk.now, Dialogue.ask_bind,
      Dialogue.done_bind, Dialogue.unfolds_ask] at hUnfolds
    rcases hUnfolds with
      ⟨_, _, rfl, now, rest, rfl, hUnfolds⟩
    right
    refine ⟨now, rest, rfl, ?_⟩
    cases hCooldown : Cooldown.update now u.cooldown with
    | some cooldown =>
        rw [hCooldown] at hUnfolds
        simp at hUnfolds
        left
        refine ⟨cooldown, rfl, hUnfolds.1, ?_⟩
        rw [hUnfolds.2, ← Cooldown.eq_some_of_update hCooldown]
    | none =>
        right
        refine ⟨rfl, ?_⟩
        rw [hCooldown] at hUnfolds
        simp only [Option.isSome_none, Bool.false_eq_true,
          if_false, Dialogue.pure_eq_done, bind_assoc,
          Dialogue.done_bind, Dialogue.unfolds_bind,
          Dialogue.unfolds_done] at hUnfolds
        rcases hUnfolds with
          ⟨worked, first, _, rfl, hWork, rfl, rfl⟩
        rw [List.append_nil]
        exact hWork
  · rw [if_pos hStarted] at hUnfolds
    simp at hUnfolds
    exact Or.inl ⟨Bool.eq_false_iff.mpr hStarted, hUnfolds⟩

/- The clock is looked at after the notices. -/
theorem workedAt?_of_talk
    {now : Instant}
    {rest : List Exchange}
    (hTick : turn.call = .tick)
    (hTalk :
      turn.talk =
        ⟨.hearNotices, ()⟩ :: ⟨.now, now⟩ :: rest) :
    turn.workedAt? =
      if Cooldown.update now turn.before.cooldown = none then
        some now
      else
        none := by
  have hClock :
      turn.talk.findSome? Exchange.clock? = some now := by
    rw [hTalk]
    rfl
  unfold workedAt?
  rw [hTick, hClock]
  simp [Option.filter]

/- In a turn, the updater works on its stage or rests. -/
theorem works_or_rests
    (hUnfolds :
      (turn.call.carryOut turn.before).Unfolds turn.talk
        (some turn.after)) :
    (∃ now rest, turn.Works now rest) ∨ turn.Rests := by
  by_cases hTick : turn.call = .tick
  · rw [hTick] at hUnfolds
    rcases unfolds_tick hUnfolds with
      ⟨-, hTalk, hAfter⟩ | ⟨now, rest, hTalk, hGated | hWorked⟩
    · right
      constructor
      · simp [workedAt?, hTick, hTalk]
      · simp [hTalk]
      · exact .inl hAfter
    · rcases hGated with ⟨cooldown, hCooldown, rfl, hAfter⟩
      right
      constructor
      · rw [workedAt?_of_talk hTick hTalk, hCooldown]
        rfl
      · simp [hTalk, Updater.quietQuestions,
          Updater.requestQuestions]
      · exact .inl hAfter
    · left
      refine ⟨now, rest, hTick, ?_, hTalk, hWorked.2⟩
      rw [workedAt?_of_talk hTick hTalk, if_pos hWorked.1]
  · right
    constructor
    · unfold workedAt?
      split
      · exact absurd ‹_› hTick
      · rfl
    · intro exchange hMem
      apply List.mem_cons_of_mem
      exact
        hUnfolds.asks (Updater.request_asks hTick) exchange hMem
    · exact hUnfolds.yields (Updater.request_yields hTick)

/-
  A tick works on the stage of an updater that was started,
  unless a cooldown is left.
-/
theorem exists_works_of_tick
    (hTick : turn.call = .tick)
    (hStarted : turn.before.started = true)
    (hNone : turn.before.cooldown = none)
    (hUnfolds :
      (turn.call.carryOut turn.before).Unfolds turn.talk
        (some turn.after)) :
    ∃ now rest, turn.Works now rest := by
  rw [hTick] at hUnfolds
  rcases unfolds_tick hUnfolds with
    ⟨hIdle, -⟩ | ⟨now, rest, hTalk, hGated | hWorked⟩
  · rw [hStarted] at hIdle
    cases hIdle
  · rcases hGated with ⟨cooldown, hCooldown, -⟩
    rw [hNone] at hCooldown
    cases hCooldown
  · refine ⟨now, rest, hTick, ?_, hTalk, hWorked.2⟩
    rw [workedAt?_of_talk hTick hTalk, if_pos hWorked.1]

/- A tick that does not work leaves the updater as it was. -/
theorem Rests.after_of_tick
    (hRests : turn.Rests)
    (hTick : turn.call = .tick)
    (hUnfolds :
      (turn.call.carryOut turn.before).Unfolds turn.talk
        (some turn.after)) :
    turn.after = turn.before := by
  rw [hTick] at hUnfolds
  rcases unfolds_tick hUnfolds with
    ⟨-, -, hAfter⟩ | ⟨now, rest, hTalk, hGated | hWorked⟩
  · exact hAfter
  · rcases hGated with ⟨cooldown, -, -, hAfter⟩
    exact hAfter
  · have hIdle := hRests.idle
    rw [workedAt?_of_talk hTick hTalk, if_pos hWorked.1]
      at hIdle
    cases hIdle

/- Where work leads is where the stage may lead. -/
theorem Works.mayBecome
    {now : Instant}
    {rest : List Exchange}
    (hWorks : turn.Works now rest) :
    (turn.before.entering now).MayBecome now
      turn.before.time.enteredAt.isNone turn.before.stage
      turn.after := by
  have hYields :
      ((turn.before.entering now).work now
        turn.before.time.enteredAt.isNone).Yields
          ((turn.before.entering now).MayBecome now
            turn.before.time.enteredAt.isNone
            (turn.before.entering now).stage) :=
    Updater.work_yields
  exact hWorks.work.yields hYields

/- What is said at work follows on the notices and the clock. -/
theorem Works.forall_talk
    {now : Instant}
    {rest : List Exchange}
    {P : Exchange → Prop}
    (hWorks : turn.Works now rest)
    (hNotices : P ⟨.hearNotices, ()⟩)
    (hClock : P ⟨.now, now⟩)
    (hRest : ∀ exchange ∈ rest, P exchange) :
    ∀ exchange ∈ turn.talk, P exchange := by
  rw [hWorks.talk]
  simp only [List.mem_cons, forall_eq_or_imp]
  exact ⟨hNotices, hClock, hRest⟩

theorem Works.edge
    {now : Instant}
    {rest : List Exchange}
    (hWorks : turn.Works now rest) :
    (turn.before.entering now).Edge turn.after :=
  Updater.edge_of_mayBecome hWorks.mayBecome

end Turn

------------------------------------------------------------
-- Runs
------------------------------------------------------------

/-
  The turns of a boot since the updater was started or, later,
  left its rest. The boot may have found anything in the flash.
-/
inductive Life.Run
    (s : Setting) : List Turn → Life → Prop where
| boots
    {l l' : Life}
    (hBoots : l.Boots s l') :
    Run s [] l'
| begins
    {turns : List Turn}
    {turn : Turn}
    {l l' : Life}
    (hRun : Run s turns l)
    (hTakes : turn.Takes s l l')
    (hBegins : turn.Begins) :
    Run s [] l'
| goesOn
    {turns : List Turn}
    {turn : Turn}
    {l l' : Life}
    (hRun : Run s turns l)
    (hTakes : turn.Takes s l l')
    (hGoesOn : ¬ turn.Begins) :
    Run s (turns ++ [turn]) l'

namespace Updater

/- An updater as it is at the beginning of a run. -/
structure Renewed
    (u : Updater) : Prop where
  retries : u.retries = .none
  time : u.time = .fresh
  started : u.started = true
  cooldown : u.cooldown = none

/- Two updaters that are at the same point of a run. -/
structure Alike
    (u next : Updater) : Prop where
  policy : next.policy = u.policy
  server : next.server = u.server
  retries : next.retries = u.retries
  time : next.time = u.time
  stage : next.stage = u.stage
  status : next.status = u.status
  started : next.started = u.started
  cooldown : next.cooldown = u.cooldown

variable {u next : Updater}

/- What a stored checkpoint is taken up by has tried nothing. -/
theorem retries_resume
    (safeMode : Bool)
    (stored : Checkpoint) :
    (u.resume safeMode stored).Yields
      (fun next => next.retries = u.retries ∧
        next.started = u.started) := by
  unfold resume Updater.show persist
  simp only [Talk.showStatus, Talk.store, Talk.resetToSafeMode,
    Dialogue.pure_eq_done, Dialogue.ask_bind,
    Dialogue.done_bind, Dialogue.yields_ite,
    Dialogue.yields_ask, Dialogue.yields_done, implies_true,
    and_self]

/- A start begins a run. -/
theorem renewed_init
    (policy : Update.Policy)
    (server : Server) :
    (fresh policy server).init.Yields Renewed := by
  unfold init loadCheckpoint
  simp only [Talk.isSafeMode, Talk.load, Dialogue.ask_bind,
    Dialogue.done_bind, Dialogue.yields_ask,
    Dialogue.yields_bind]
  intro safeMode answer
  cases answer with
  | error fault =>
      simp only [Dialogue.pure_eq_done, Dialogue.done_bind,
        Dialogue.yields_done]
      exact ⟨rfl, rfl, rfl, rfl⟩
  | ok record =>
      simp only [Dialogue.pure_eq_done, Dialogue.yields_done]
      cases Record.decode? record with
      | none =>
          simp only [Dialogue.done_bind, Dialogue.yields_done]
          exact ⟨rfl, rfl, rfl, rfl⟩
      | some stored =>
          simp only [Dialogue.yields_bind,
            Dialogue.yields_done]
          apply (retries_resume safeMode stored).mono
          intro next hKept
          exact ⟨hKept.1, rfl, hKept.2, rfl⟩

end Updater

namespace Turn

variable {turn : Turn}

/- A turn that begins a run renews the updater. -/
theorem Rests.renewed
    (hRests : turn.Rests)
    (hBegins : turn.Begins) :
    turn.after.Renewed := by
  rcases hBegins with ⟨hIdle, hQualify⟩
  have hMoved : turn.after.stage ≠ turn.before.stage := by
    rw [hIdle, hQualify]
    simp
  rcases hRests.kept with
    hAfter | ⟨hReady, hAfter⟩ | ⟨_, hAfter⟩ | ⟨path, _, hPath⟩
  · exact absurd (congrArg Updater.stage hAfter) hMoved
  · rw [hAfter]
    exact ⟨rfl, rfl, hReady.1, rfl⟩
  · exact absurd (congrArg Updater.stage hAfter) hMoved
  · rcases hPath with ⟨hReady, hAfter⟩ | ⟨_, hAfter⟩
    · rw [hAfter]
      exact ⟨rfl, rfl, hReady.1, rfl⟩
    · exact absurd (congrArg Updater.stage hAfter) hMoved

/- Any other turn without work leaves the run where it is. -/
theorem Rests.alike
    (hRests : turn.Rests)
    (hGoesOn : ¬ turn.Begins) :
    turn.before.Alike turn.after := by
  rcases hRests.kept with
    hAfter | ⟨hReady, hAfter⟩ | ⟨_, hAfter⟩ | ⟨path, _, hPath⟩
  · rw [hAfter]
    exact ⟨rfl, rfl, rfl, rfl, rfl, rfl, rfl, rfl⟩
  · refine absurd ⟨hReady.2.1, ?_⟩ hGoesOn
    rw [hAfter]
    rfl
  · rw [hAfter]
    exact ⟨rfl, rfl, rfl, rfl, rfl, rfl, rfl, rfl⟩
  · rcases hPath with ⟨hReady, hAfter⟩ | ⟨_, hAfter⟩
    · refine absurd ⟨hReady.2.1, ?_⟩ hGoesOn
      rw [hAfter]
      rfl
    · rw [hAfter]
      exact ⟨rfl, rfl, rfl, rfl, rfl, rfl, rfl, rfl⟩

/- A turn without work spares status and stage. -/
theorem Rests.spared
    (hRests : turn.Rests) :
    turn.before.Spared turn.after :=
  hRests.kept.spared

/- Work at rest does not begin a run. -/
theorem Works.not_begins
    {now : Instant}
    {rest : List Exchange}
    (hWorks : turn.Works now rest) :
    ¬ turn.Begins := by
  rintro ⟨hIdle, hQualify⟩
  have hNext := hWorks.mayBecome
  rw [hIdle] at hNext
  rcases hNext with hNext | hNext
  · rw [hNext] at hQualify
    exact absurd (hIdle.symm.trans hQualify) (by simp)
  · rw [hNext] at hQualify
    exact absurd (hIdle.symm.trans hQualify) (by simp)

end Turn

namespace Life

variable
  {s : Setting}
  {turns : List Turn}
  {l : Life}

/-
  Induction over runs, on the updater and the course of its
  boot: what holds after a start, and is kept by each call,
  holds between any two calls.
-/
theorem Run.invariant
    (inv : Updater → Course → Prop)
    (hBoot : ∀ slot safeMode policy server,
      (Updater.fresh policy server).init.Always
        (Course.goes s) (fun _ => True) inv
          (.fresh slot safeMode))
    (hCall : ∀ (call : Updater.Call) u c, inv u c →
      (call.carryOut u).Always (Course.goes s)
        (fun _ => True) inv c)
    (hRun : l.Run s turns) :
    ∀ u ∈ l.updater, inv u l.course := by
  have hTakes :
      ∀ {turn : Turn} {l l' : Life},
        (∀ u ∈ l.updater, inv u l.course) →
          turn.Takes s l l' → ∀ u ∈ l'.updater,
            inv u l'.course := by
    intro turn l l' hBefore hTakes u hMem
    rw [hTakes.after] at hMem
    have hInv := hBefore _ hTakes.before
    exact
      (hTakes.leads.of_always (hCall _ _ _ hInv) trivial).2 u
        hMem
  induction hRun with
  | boots hBoots =>
      rcases hBoots with
        ⟨slot, safeMode, policy, server, hSurvives, hLeads⟩
      exact (hLeads.of_always (hBoot _ _ _ _) trivial).2
  | begins _ hTurn _ ih =>
      exact hTakes ih hTurn
  | goesOn _ hTurn _ ih =>
      exact hTakes ih hTurn

/-
  Induction over runs, on the turns and the updater: what holds
  at the beginning of a run, and is kept by each turn that works
  on a stage and each turn that does not, holds after any turn.
-/
theorem Run.follows
    (inv : List Turn → Updater → Prop)
    (hRenewed : ∀ u, u.Renewed → inv [] u)
    (hRests : ∀ turns turn, turn.Rests →
      turn.before.Alike turn.after → inv turns turn.before →
        inv (turns ++ [turn]) turn.after)
    (hWorks : ∀ turns turn now rest, turn.Works now rest →
      inv turns turn.before →
        inv (turns ++ [turn]) turn.after)
    (hRun : l.Run s turns) :
    ∀ u ∈ l.updater, inv turns u := by
  induction hRun with
  | boots hBoots =>
      rcases hBoots with
        ⟨slot, safeMode, policy, server, hSurvives, hLeads⟩
      intro u hMem
      rw [Option.mem_def.mp hMem] at hLeads
      apply hRenewed
      exact hLeads.yields (Updater.renewed_init policy server)
  | begins _ hTakes hBegins _ =>
      intro u hMem
      rw [hTakes.after, Option.mem_some] at hMem
      rw [← hMem]
      rcases Turn.works_or_rests hTakes.unfolds with
        ⟨now, rest, hWork⟩ | hRest
      · exact absurd hBegins hWork.not_begins
      · exact hRenewed _ (hRest.renewed hBegins)
  | goesOn _ hTakes hGoesOn ih =>
      intro u hMem
      rw [hTakes.after, Option.mem_some] at hMem
      rw [← hMem]
      have hBefore := ih _ hTakes.before
      rcases Turn.works_or_rests hTakes.unfolds with
        ⟨now, rest, hWork⟩ | hRest
      · exact hWorks _ _ now rest hWork hBefore
      · exact hRests _ _ hRest (hRest.alike hGoesOn) hBefore

/- A turn goes on with the run, or begins another one. -/
theorem Run.takes
    {turn : Turn}
    {l' : Life}
    (hRun : l.Run s turns)
    (hTakes : turn.Takes s l l') :
    ∃ turns', l'.Run s turns' := by
  by_cases hBegins : turn.Begins
  · exact ⟨[], .begins hRun hTakes hBegins⟩
  · exact ⟨turns ++ [turn], .goesOn hRun hTakes hBegins⟩

/- Whenever the updater is up, it is in a run. -/
theorem Lived.exists_run
    {u : Updater}
    (hLived : l.Lived s)
    (hUp : l.updater = some u) :
    ∃ turns, l.Run s turns := by
  induction hLived generalizing u with
  | unused slot safeMode hSlot =>
      cases hUp
  | boots _ hBoots _ =>
      exact ⟨[], .boots hBoots⟩
  | calls _ hCalls ih =>
      rcases Turn.exists_takes hCalls hUp with
        ⟨turn, _, hTakes⟩
      rcases ih hTakes.before with ⟨turns, hRun⟩
      exact hRun.takes hTakes

end Life

------------------------------------------------------------
-- Stays in a Stage
------------------------------------------------------------

namespace Turn

/-
  The reading of the clock at the first tick that worked on the
  stage since that was entered, or taken up after a reset.
-/
def firstWork?
    (turns : List Turn) : Option Instant :=
  (turns.rtakeWhile
    (fun turn => turn.after.stage = turn.before.stage)).findSome?
      workedAt?

/- A turn that leaves the stage ends the stay. -/
theorem firstWork?_of_leaves
    (turns : List Turn)
    {turn : Turn}
    (hLeaves : turn.after.stage ≠ turn.before.stage) :
    firstWork? (turns ++ [turn]) = none := by
  unfold firstWork?
  rw [List.rtakeWhile_concat_neg _ _ _ (by simpa using hLeaves)]
  rfl

/- A turn that stays may be the first to work on the stage. -/
theorem firstWork?_of_stays
    (turns : List Turn)
    {turn : Turn}
    (hStays : turn.after.stage = turn.before.stage) :
    firstWork? (turns ++ [turn]) =
      (firstWork? turns).or turn.workedAt? := by
  unfold firstWork?
  rw [List.rtakeWhile_concat_pos _ _ _ (by simpa using hStays),
    List.findSome?_append]
  simp

end Turn

/- No stage follows on itself. -/
theorem Stage.not_mem_successors
    (stage : Stage) :
    stage ∉ stage.successors := by
  cases stage <;> simp

/-
  An updater knows the first tick that worked on its stage, but
  for a stage that is taken up when a reset comes back.
-/
theorem Life.Run.enteredAt
    {s : Setting}
    {turns : List Turn}
    {l : Life}
    (hRun : l.Run s turns) :
    ∀ u ∈ l.updater, u.stage ≠ .setupCloudConnect →
      u.time.enteredAt = Turn.firstWork? turns := by
  refine
    Run.follows
      (fun turns u =>
        u.stage ≠ .setupCloudConnect →
          u.time.enteredAt = Turn.firstWork? turns)
      ?_ ?_ ?_ hRun
  · intro u hRenewed _
    rw [hRenewed.time]
    rfl
  · intro turns turn hRests hAlike ih hStage
    rw [Turn.firstWork?_of_stays turns hAlike.stage,
      hRests.idle, hAlike.time, Option.or_none]
    rw [hAlike.stage] at hStage
    exact ih hStage
  · intro turns turn now rest hWorks ih hStage
    rcases hWorks.edge with
      ⟨hSame, hEntered⟩ | ⟨hMem, hFresh⟩ | ⟨_, hTaken⟩
    · change turn.after.stage = turn.before.stage at hSame
      rw [hSame] at hStage
      rw [Turn.firstWork?_of_stays turns hSame, hEntered,
        hWorks.worked, ← ih hStage]
      change some (turn.before.time.enteredAt.getD now) = _
      cases turn.before.time.enteredAt <;> rfl
    · have hLeaves :
          turn.after.stage ≠ turn.before.stage := by
        intro hSame
        rw [hSame] at hMem
        exact Stage.not_mem_successors _ hMem
      rw [Turn.firstWork?_of_leaves turns hLeaves, hFresh]
      rfl
    · exact absurd hTaken hStage

end Fota
