import Fota.Proofs.Update.ReliableStarts
import Fota.Proofs.Update.StageTimeouts
import Mathlib.Logic.Relation

/-
  This file shows that the status of a finished run is reported
  once. The last tick of a run stores the run as finished. Boots
  in safe mode leave it stored, the first start in normal mode
  shows its status and puts it to rest, and no later boot shows
  it again, as long as no other run begins.

  Key definitions include:
    * `Life.Reboots`
    * `Life.Idles`
    * `Life.Aftermath`
    * `Life.Reports`

  The main statement is `Life.status_reported_once`.
-/

namespace Fota

open Update (Answer Course Question Setting Talk)

------------------------------------------------------------
-- Calls at Rest
------------------------------------------------------------

namespace Update.Course

variable
  {s : Setting}
  {c c' : Course}
  {question : Question}
  {answer : Answer question}

/- Slot and telemetry are as they were at another moment. -/
structure Undisturbed
    (c c' : Course) : Prop where
  stored : c'.stored = c.stored
  shown : c'.shown? = c.shown?

theorem Undisturbed.goes
    {c₀ : Course}
    (hSame : c₀.Undisturbed c)
    (hStore : ∀ record, question ≠ .store record)
    (hShow : ∀ status, question ≠ .showStatus status)
    (hGoes : goes s c question answer c') :
    c₀.Undisturbed c' :=
  ⟨(stored_of_goes hGoes hStore).trans hSame.stored,
    (shown?_of_goes hGoes hShow).trans hSame.shown⟩

end Update.Course

/- At rest, an updater neither stores nor shows anything. -/
theorem Updater.touches_nothing
    {call : Call}
    {u : Updater}
    {question : Question}
    (hStage : u.stage = .idle)
    (hAsk : call.MayAsk u question) :
    (∀ record, question ≠ .store record) ∧
      ∀ status, question ≠ .showStatus status := by
  cases call with
  | tick =>
      rcases hAsk with rfl | rfl | hAsk
      · simp
      · simp
      · rw [hStage] at hAsk
        simp only [MayAsk, List.mem_cons, List.not_mem_nil,
          or_false] at hAsk
        rcases hAsk with rfl | rfl | rfl <;> simp
  | _ =>
      simp only [Call.MayAsk, requestQuestions, List.mem_cons,
        List.not_mem_nil, or_false] at hAsk
      rcases hAsk with
        rfl | rfl | rfl | rfl | rfl | rfl | rfl | rfl <;> simp

/- At rest, an updater stays there or begins a run. -/
theorem Turn.stays_or_begins
    {turn : Turn}
    (hStage : turn.before.stage = .idle)
    (hUnfolds :
      (turn.call.carryOut turn.before).Unfolds turn.talk
        (some turn.after)) :
    turn.after.shown = turn.before.shown ∧
      (turn.after.stage = .idle ∨
        turn.after.stage = .qualifyFlags) := by
  rcases works_or_rests hUnfolds with
    ⟨now, rest, hWorks⟩ | hRests
  · have hNext := hWorks.mayBecome
    rw [hStage] at hNext
    rcases hNext with hNext | hNext
    · rw [hNext]
      exact ⟨rfl, .inl hStage⟩
    · rw [hNext]
      exact ⟨rfl, .inl hStage⟩
  · refine ⟨hRests.spared.shown, ?_⟩
    rcases hRests.spared.stage with hSame | ⟨_, hBegun⟩
    · exact .inl (hSame.trans hStage)
    · exact .inr hBegun

------------------------------------------------------------
-- The Last Tick of a Run
------------------------------------------------------------

namespace Updater

variable
  {u : Updater}
  {c : Course}

/- The last stage of a run stores it as finished. -/
theorem always_stores_finished :
    u.finishedIdle.Always (Course.goes .reliable)
      (fun _ => True)
      (fun next c' =>
        next.stage = .idle ∧
          c'.stored =
            some
              (Record.encode
                (u.withStage .finishedIdle).checkpoint)) c := by
  unfold finishedIdle checkpointAt persist Updater.show
  simp only [Talk.setUpdateMode, Talk.store, Talk.showStatus,
    Dialogue.pure_eq_done, Dialogue.ask_bind,
    Dialogue.done_bind, Dialogue.always_ask,
    Dialogue.always_done]
  intro _ c₁ hGiven
  refine ⟨trivial, ?_⟩
  intro answer c₂ hWritten
  have hStored := (Course.stored_of_reliable_store hWritten).1
  refine ⟨trivial, ?_⟩
  intro _ c₃ hShown
  refine ⟨trivial, rfl, ?_⟩
  rw [Course.stored_of_goes hShown (by simp), hStored]
  rfl

/- A tick that works on the last stage comes to rest. -/
theorem always_tick_finished
    (hStage : u.stage = .finishedIdle) :
    (Call.tick.carryOut u).Always (Course.goes .reliable)
      (fun _ => True)
      (fun next c' =>
        next.stage = .idle →
          c'.stored = some (Record.encode u.checkpoint))
      c := by
  have hMoved :
      ∀ next : Updater, next.checkpoint = u.checkpoint →
        next.stage ≠ .idle := by
    intro next hSame
    change next.checkpoint.stage ≠ .idle
    rw [hSame, show u.checkpoint.stage = _ from hStage]
    simp
  apply always_tick (J := fun _ => True)
  · intro c question answer c' _ _ _
    trivial
  · intro c _
    trivial
  · intro cooldown c _ hIdle
    exact absurd hIdle (hMoved _ rfl)
  · intro now c _
    have hEntering : (u.entering now).stage = .finishedIdle :=
      hStage
    have hSame :
        ((u.entering now).withStage .finishedIdle).checkpoint =
          u.checkpoint := by
      change { u.checkpoint with stage := .finishedIdle } = _
      rw [← hStage]
      rfl
    unfold work
    rw [hEntering]
    apply always_stores_finished.mono (fun _ _ => trivial)
    intro next c' hNext _
    rw [hNext.2, hSame]
  · trivial

end Updater

------------------------------------------------------------
-- What Follows on a Finished Run
------------------------------------------------------------

/- Nothing is under way, and nothing is known of an update. -/
structure Checkpoint.Resting
    (c : Checkpoint) : Prop where
  stage : c.stage = .idle
  status : c.status = .idle
  availability : c.availability = .unknown
  ownPath : c.ownPath = false

theorem Updater.resting_atRest
    (stored : Checkpoint) :
    (atRest stored).Resting :=
  ⟨rfl, rfl, rfl, rfl⟩

namespace Life

/- A boot that finds the slot as it was left. -/
def Reboots
    (s : Setting)
    (safeMode : Bool)
    (l l' : Life) : Prop :=
  ∃ policy server,
    (Updater.fresh policy server).init.Leads (Course.goes s)
      (.fresh l.course.stored safeMode) l'.updater l'.course

/- A call that does not begin a run; it may be cut off. -/
def Idles
    (s : Setting)
    (l l' : Life) : Prop :=
  (∃ call, l.Calls s call l') ∧
    ∀ u ∈ l'.updater, u.stage ≠ .qualifyFlags

/- A start came to its end, or so far that it stored a record. -/
def Started
    (l : Life) : Prop :=
  l.updater.isSome = true ∨
    ∃ record, .asked (.store record) (.ok ()) ∈ l.course.past

/-
  What may follow on a moment while no run begins: calls, boots
  in either mode, and losses of power at any time. It is noted
  whether the updater has started in normal mode since; a start
  that is cut off before it has stored anything does not count.
-/
inductive Aftermath
    (s : Setting)
    (l₀ : Life) : Bool → Life → Prop where
| finished :
    Aftermath s l₀ false l₀
| idles
    {reported : Bool}
    {l l' : Life}
    (hAfter : Aftermath s l₀ reported l)
    (hIdles : Idles s l l') :
    Aftermath s l₀ reported l'
| safeMode
    {reported : Bool}
    {l l' : Life}
    (hAfter : Aftermath s l₀ reported l)
    (hReboots : Reboots s true l l') :
    Aftermath s l₀ reported l'
| normalMode
    {reported : Bool}
    {l l' : Life}
    (hAfter : Aftermath s l₀ reported l)
    (hReboots : Reboots s false l l')
    (hStarted : l'.Started) :
    Aftermath s l₀ true l'
| cutOff
    {reported : Bool}
    {l l' : Life}
    (hAfter : Aftermath s l₀ reported l)
    (hReboots : Reboots s false l l')
    (hStarted : ¬ l'.Started) :
    Aftermath s l₀ reported l'

/-
  A status is what the updater shows and telemetry was told in
  this boot. If there is none, telemetry was told nothing, and
  the updater shows that there was no run.
-/
structure Reports
    (status : Option Status)
    (l : Life) : Prop where
  shown : ∀ u ∈ l.updater, u.shown = status.getD .noRun
  told : l.course.shown? = status

variable
  {s : Setting}
  {turn : Turn}
  {stored : Checkpoint}
  {safeMode reported : Bool}
  {status : Option Status}
  {l l' l₀ l₁ : Life}

------------------------------------------------------------
-- Starts and Calls
------------------------------------------------------------

/- A record is stored, and the updater is at rest if it is up. -/
structure Settled
    (stored : Checkpoint)
    (l : Life) : Prop where
  stored : l.course.stored = some (Record.encode stored)
  stage : ∀ u ∈ l.updater, u.stage = .idle

/- A boot that finds nothing to report changes nothing. -/
theorem Reboots.quiet
    (hSettled : l.Settled stored)
    (hQuiet : stored.Quiet safeMode)
    (hReboots : l.Reboots .reliable safeMode l') :
    l'.Settled stored ∧ l'.Reports none := by
  rcases hReboots with ⟨policy, server, hLeads⟩
  rw [hSettled.stored] at hLeads
  have hUntouched :=
    hLeads.of_always (Updater.always_init_quiet hQuiet)
      (Course.untouched_fresh safeMode)
  constructor
  · refine ⟨hUntouched.1.stored, ?_⟩
    intro u hMem
    exact (hUntouched.2 u hMem).1
  · refine ⟨?_, hUntouched.1.shown⟩
    intro u hMem
    exact (hUntouched.2 u hMem).2

/- A start in normal mode that counts reports a finished run. -/
theorem Reboots.reports
    (hSettled : l.Settled stored)
    (hStored : stored.stage = .finishedIdle)
    (hReboots : l.Reboots .reliable false l')
    (hStarted : l'.Started) :
    l'.Settled (Updater.atRest stored) ∧
      (∀ u ∈ l'.updater,
        u.checkpoint = Updater.atRest stored) ∧
        l'.Reports (some stored.status) := by
  rcases hReboots with ⟨policy, server, hLeads⟩
  rw [hSettled.stored] at hLeads
  have hReported :=
    hLeads.of_always (Updater.always_init_reports hStored)
      (.inl (Course.untouched_fresh false).toUnwritten)
  have hTold : l'.course.Told stored := by
    rcases hStarted with hUp | ⟨record, hWritten⟩
    · rcases Option.isSome_iff_exists.mp hUp with ⟨u, hMem⟩
      exact (hReported.2 u hMem).2.2
    · rcases hReported.1 with hUnwritten | hTold
      · exact absurd hWritten (hUnwritten.silent record _)
      · exact hTold
  refine ⟨⟨hTold.stored, ?_⟩, ?_, ?_, hTold.shown⟩
  · intro u hMem
    change u.checkpoint.stage = .idle
    rw [(hReported.2 u hMem).1]
    rfl
  · intro u hMem
    exact (hReported.2 u hMem).1
  · intro u hMem
    exact (hReported.2 u hMem).2.1

/- One that does not count leaves it for the next boot. -/
theorem Reboots.interrupted
    (hSettled : l.Settled stored)
    (hStored : stored.stage = .finishedIdle)
    (hReboots : l.Reboots .reliable false l')
    (hStarted : ¬ l'.Started) :
    l'.Settled stored := by
  rcases hReboots with ⟨policy, server, hLeads⟩
  rw [hSettled.stored] at hLeads
  have hReported :=
    hLeads.of_always (Updater.always_init_reports hStored)
      (.inl (Course.untouched_fresh false).toUnwritten)
  constructor
  · rcases hReported.1 with hUnwritten | hTold
    · exact hUnwritten.stored
    · exact absurd (.inr hTold.written) hStarted
  · intro u hMem
    refine absurd (.inl ?_) hStarted
    rw [Option.mem_def.mp hMem]
    rfl

/- A call at rest disturbs nothing and stays at rest. -/
theorem Idles.undisturbed
    (hSettled : l.Settled stored)
    (hIdles : l.Idles s l') :
    l.course.Undisturbed l'.course ∧
      ∀ next ∈ l'.updater, next.stage = .idle ∧
        ∃ u ∈ l.updater, next.shown = u.shown := by
  rcases hIdles with ⟨⟨call, hCalls⟩, hNone⟩
  constructor
  · rcases hCalls with ⟨u, hMem, hLeads⟩
    apply hLeads.keeps (Updater.carryOut_asks call) _ ⟨rfl, rfl⟩
    intro c question answer c' hAsk hSame hGoes
    have hTouches :=
      Updater.touches_nothing (hSettled.stage u hMem) hAsk
    exact hSame.goes hTouches.1 hTouches.2 hGoes
  · intro next hMem
    rcases Turn.exists_takes hCalls hMem with
      ⟨turn, _, hTakes⟩
    have hStays :=
      Turn.stays_or_begins (hSettled.stage _ hTakes.before)
        hTakes.unfolds
    cases Option.mem_unique hMem hTakes.after
    refine ⟨?_, turn.before, hTakes.before, hStays.1⟩
    exact hStays.2.resolve_right (hNone _ hMem)

theorem Idles.settled
    (hSettled : l.Settled stored)
    (hIdles : l.Idles s l') :
    l'.Settled stored := by
  have hNext := hIdles.undisturbed hSettled
  refine ⟨hNext.1.stored.trans hSettled.stored, ?_⟩
  intro next hMem
  exact (hNext.2 next hMem).1

theorem Idles.reports
    (hSettled : l.Settled stored)
    (hReports : l.Reports status)
    (hIdles : l.Idles s l') :
    l'.Reports status := by
  have hNext := hIdles.undisturbed hSettled
  refine ⟨?_, hNext.1.shown.trans hReports.told⟩
  intro next hMem
  rcases (hNext.2 next hMem).2 with ⟨u, hBefore, hShown⟩
  exact hShown.trans (hReports.shown u hBefore)

/- So do any number of calls at rest. -/
theorem settled_of_idles
    (hSettled : l.Settled stored)
    (hIdles : Relation.ReflTransGen (Idles s) l l') :
    l'.Settled stored := by
  induction hIdles with
  | refl =>
      exact hSettled
  | tail _ hLast ih =>
      exact hLast.settled ih

theorem reports_of_idles
    (hSettled : l.Settled stored)
    (hReports : l.Reports status)
    (hIdles : Relation.ReflTransGen (Idles s) l l') :
    l'.Reports status := by
  induction hIdles with
  | refl =>
      exact hReports
  | tail hFirst hLast ih =>
      exact hLast.reports (settled_of_idles hSettled hFirst) ih

------------------------------------------------------------
-- Reports
------------------------------------------------------------

/- A run that has come to its end is stored as finished. -/
theorem settled_of_finished
    (hTakes : turn.Takes .reliable l l₀)
    (hWorked : turn.workedAt?.isSome = true)
    (hStage : turn.before.stage = .finishedIdle) :
    l₀.Settled turn.before.checkpoint := by
  rcases Turn.works_or_rests hTakes.unfolds with
    ⟨now, rest, hWorks⟩ | hRests
  · have hIdle : turn.after.stage = .idle := by
      have hNext := hWorks.mayBecome
      rw [hStage] at hNext
      rw [hNext]
      rfl
    have hLeads := hTakes.leads
    rw [hWorks.tick] at hLeads
    have hStored :=
      (hLeads.of_always (Updater.always_tick_finished hStage)
        trivial).2 _ rfl hIdle
    refine ⟨hStored, ?_⟩
    intro u hMem
    cases Option.mem_unique hMem hTakes.after
    exact hIdle
  · rw [hRests.idle] at hWorked
    cases hWorked

/- What is stored once the run was reported, and before. -/
def recorded
    (finished : Checkpoint) : Bool → Checkpoint
| true => Updater.atRest finished
| false => finished

/- A start in safe mode reports no finished run. -/
theorem quiet_recorded
    {finished : Checkpoint}
    (hStage : finished.stage = .finishedIdle)
    (reported : Bool) :
    (recorded finished reported).Quiet true := by
  cases reported with
  | true => exact .inl rfl
  | false => exact .inr ⟨hStage, rfl⟩

theorem Aftermath.settled
    {finished : Checkpoint}
    (hStart : l₀.Settled finished)
    (hStage : finished.stage = .finishedIdle)
    (hAfter : Aftermath .reliable l₀ reported l₁) :
    l₁.Settled (recorded finished reported) := by
  induction hAfter with
  | finished =>
      exact hStart
  | idles _ hIdles ih =>
      exact hIdles.settled ih
  | safeMode _ hReboots ih =>
      exact (hReboots.quiet ih (quiet_recorded hStage _)).1
  | @normalMode reported _ _ _ hReboots hStarted ih =>
      cases reported with
      | true =>
          exact (hReboots.quiet ih (.inl rfl)).1
      | false =>
          exact (hReboots.reports ih hStage hStarted).1
  | @cutOff reported _ _ _ hReboots hStarted ih =>
      cases reported with
      | true =>
          exact (hReboots.quiet ih (.inl rfl)).1
      | false =>
          exact hReboots.interrupted ih hStage hStarted

/-
  The status of a finished run is reported once. After its last
  tick and while no other run begins, the record is that of the
  finished run until an updater has started in normal mode, and
  that of the run at rest from then on. No boot in safe mode
  changes it. The first start in normal mode shows the status
  and leaves the run at rest, in the updater as in the flash;
  each later boot in normal mode shows that there was no run.
  What a boot shows does not change until a run begins, and a
  start in normal mode comes to its end unless it is cut off.
-/
theorem status_reported_once
    (hTakes : turn.Takes .reliable l l₀)
    (hWorked : turn.workedAt?.isSome = true)
    (hStage : turn.before.stage = .finishedIdle)
    (hAfter : Aftermath .reliable l₀ reported l₁) :
    l₁.course.stored =
        some
          (Record.encode
            (recorded turn.before.checkpoint reported)) ∧
      (∀ l₂ l₃, l₁.Reboots .reliable true l₂ →
        Relation.ReflTransGen (Idles .reliable) l₂ l₃ →
          l₃.course.stored = l₁.course.stored) ∧
      (reported = false →
        ∀ l₂ l₃, l₁.Reboots .reliable false l₂ → l₂.Started →
          Relation.ReflTransGen (Idles .reliable) l₂ l₃ →
            (∀ u ∈ l₂.updater,
              u.checkpoint.Resting ∧
                l₂.course.stored =
                  some (Record.encode u.checkpoint)) ∧
              l₃.Reports (some turn.before.status)) ∧
      (reported = true →
        ∀ l₂ l₃, l₁.Reboots .reliable false l₂ →
          Relation.ReflTransGen (Idles .reliable) l₂ l₃ →
            l₃.Reports none) ∧
      ∀ policy server,
        (Updater.fresh policy server).init.Answered
          (Course.goes .reliable)
          (.fresh l₁.course.stored false) := by
  have hStart := settled_of_finished hTakes hWorked hStage
  have hSettled := hAfter.settled hStart hStage
  refine ⟨hSettled.stored, ?_, ?_, ?_, ?_⟩
  · intro l₂ l₃ hReboots hIdles
    have hQuiet :=
      hReboots.quiet hSettled (quiet_recorded hStage _)
    have hLater := settled_of_idles hQuiet.1 hIdles
    exact hLater.stored.trans hSettled.stored.symm
  · rintro rfl l₂ l₃ hReboots hStarted hIdles
    rcases hReboots.reports hSettled hStage hStarted with
      ⟨hRest, hTaken, hReports⟩
    constructor
    · intro u hMem
      rw [hTaken u hMem]
      exact ⟨Updater.resting_atRest _, hRest.stored⟩
    · exact reports_of_idles hRest hReports hIdles
  · rintro rfl l₂ l₃ hReboots hIdles
    have hQuiet := hReboots.quiet hSettled (.inl rfl)
    exact reports_of_idles hQuiet.1 hQuiet.2 hIdles
  · intro policy server
    rw [hSettled.stored]
    apply Updater.answered_init
    cases reported with
    | true => exact .inl rfl
    | false => exact .inr hStage

end Life

------------------------------------------------------------
-- A Run that Fails
------------------------------------------------------------

theorem Update.Script.unlinked_suits
    (ms : Nat) :
    (Script.unlinked ms).Suits .reliable :=
  suits_reliable (fun _ _ => rfl)

/- A run that has waited for a session for too long. -/
def Replay.unlinkedLate : Replay :=
  (Replay.unlinked 3).call (.unlinked 1000000) .tick

namespace Life

theorem reboots_perform
    {s : Setting}
    {script : Update.Script}
    {l : Life}
    (hSuits : script.Suits s)
    (safeMode : Bool) :
    l.Reboots s safeMode
      (Act.perform script l (.boots safeMode)) :=
  ⟨.standard, .standard, hSuits.play_leads _ _⟩

/- The end of that run. -/
def unlinked : Life :=
  Replay.unlinkedLate.next (.unlinked 10) .tick

/- A boot in safe mode after it, and its first tick. -/
def unlinkedSafe : Life :=
  Act.perform (.unlinked 10) unlinked (.boots true)

/- After that tick, some more boots in normal mode. -/
def unlinkedNormal : Nat → Life
| 0 => Act.perform (.unlinked 10) unlinkedSafe (.calls .tick)
| boots + 1 =>
    Act.perform (.unlinked 10) (unlinkedNormal boots)
      (.boots false)

/- Each start comes to its end, and the tick does not. -/
theorem updater_unlinked :
    unlinkedSafe.updater.isSome = true ∧
      (unlinkedNormal 0).updater.isNone = true ∧
      (unlinkedNormal 1).updater.isSome = true ∧
      (unlinkedNormal 2).updater.isSome = true := by
  decide +kernel

theorem reboots_unlinked
    (boots : Nat) :
    (unlinkedNormal boots).Reboots .reliable false
      (unlinkedNormal (boots + 1)) :=
  reboots_perform (Update.Script.unlinked_suits 10) false

/- The tick in safe mode ends the boot, and begins no run. -/
theorem aftermath_unlinked :
    Aftermath .reliable unlinked false (unlinkedNormal 0) := by
  rcases updater_unlinked with ⟨hUp, hCut, -⟩
  rcases Option.isSome_iff_exists.mp hUp with ⟨u, hMem⟩
  have hSuits := Update.Script.unlinked_suits 10
  have hReboots :
      unlinked.Reboots .reliable true unlinkedSafe :=
    reboots_perform hSuits true
  have hCalls :
      unlinkedSafe.Calls .reliable .tick (unlinkedNormal 0) :=
    calls_perform_of_suits hSuits .tick hMem
  apply (Aftermath.finished.safeMode hReboots).idles
  refine ⟨⟨.tick, hCalls⟩, ?_⟩
  intro next hNext
  rw [Option.isNone_iff_eq_none.mp hCut] at hNext
  cases hNext

/-
  The next boot in normal mode shows that the session did not
  come, and the one after that shows nothing any more.
-/
theorem status_reported_without_session :
    (unlinkedNormal 1).updater.isSome = true ∧
      (unlinkedNormal 1).Reports
        (some (.failed .cloudConnectOnEntryTimeout)) ∧
      (unlinkedNormal 2).updater.isSome = true ∧
      (unlinkedNormal 2).Reports none := by
  have hMoment :
      ∃ turn ∈ Replay.unlinkedLate.turn? (.unlinked 10) .tick,
        turn.workedAt?.isSome = true ∧
          turn.before.stage = .finishedIdle ∧
          turn.before.status =
            .failed .cloudConnectOnEntryTimeout := by
    decide +kernel
  rcases updater_unlinked with ⟨-, -, hFirst, hLater⟩
  rcases hMoment with ⟨turn, hTurn, hWorked, hStage, hStatus⟩
  have hTakes : turn.Takes .reliable _ unlinked :=
    Replay.takes_next_of_suits (Update.Script.unlinked_suits 10)
      hTurn
  have hOnce :=
    status_reported_once hTakes hWorked hStage
      aftermath_unlinked
  have hAgain :=
    status_reported_once hTakes hWorked hStage
      (aftermath_unlinked.normalMode (reboots_unlinked 0)
        (.inl hFirst))
  rw [hStatus] at hOnce
  refine ⟨hFirst, ?_, hLater, ?_⟩
  · exact
      (hOnce.2.2.1 rfl _ _ (reboots_unlinked 0) (.inl hFirst)
        .refl).2
  · exact hAgain.2.2.2.1 rfl _ _ (reboots_unlinked 1) .refl

end Life

end Fota
