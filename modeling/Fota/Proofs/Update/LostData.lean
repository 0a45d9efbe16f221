import Fota.Proofs.Modem.LatestNotices
import Fota.Proofs.Update.Attempts
import Fota.Proofs.Update.EarnedSuccess
import Fota.Proofs.Update.Replays

/-
  This file shows when a download restores the packet data that
  it needs. Before each attempt the updater takes from the
  mailbox which context was reported as lost. The mailbox has
  room for one context, so the attempt activates packet data
  again just when the last context that was lost since the
  attempt before it is that of the update.

  Key definitions include:
    * `Update.Losses`
    * `Update.Course.losses`
    * `Turn.restoring`
    * `Turn.Restores`

  The main statement is `Life.data_restored_iff_lost_last`.
-/

namespace Fota

open Update
  (Answer Course Exchange Happening Question Script Setting
    Talk)

------------------------------------------------------------
-- Lost Contexts
------------------------------------------------------------

/- The mailbox holds the last context that is reported as lost. -/
theorem Mailbox.deactivation_deliver
    (line : String)
    (m : Mailbox) :
    (m.deliver line).2.deactivation =
      (Report.deactivation? line).or m.deactivation := by
  have hHolds := m.holds_deliver .deactivation line
  change (m.deliver line).2.deactivation = _ at hHolds
  rw [hHolds]
  cases hRead : Report.deactivation? line with
  | none => rw [Kind.update_of_none .deactivation hRead]; rfl
  | some context =>
      rw [Kind.update_of_some .deactivation hRead]
      rfl

namespace Update

/-
  The contexts that were reported as lost, in order: those since
  the updater last asked for one, and those before, back to when
  it had asked for one before that.
-/
structure Losses where
  since : List UInt8
  before : List UInt8
deriving DecidableEq

/- What is known of lost contexts after what happens next. -/
def Losses.note
    (losses : Losses) : Happening → Losses
| .notice line =>
    { losses with
      since :=
        losses.since ++ (Report.deactivation? line).toList }
| .asked .takeDeactivation _ => ⟨[], losses.since⟩
| _ => losses

/- What is known of lost contexts in the course of a boot. -/
def Course.losses
    (c : Course) : Losses :=
  c.past.foldl Losses.note ⟨[], []⟩

/- The mailbox holds the last context lost since it was asked. -/
theorem Course.mailbox_deactivation
    (c : Course) :
    c.mailbox.deactivation = c.losses.since.getLast? := by
  unfold mailbox losses
  induction c.past using List.reverseRecOn with
  | nil => rfl
  | append_singleton past happening ih =>
      rw [List.foldl_concat, List.foldl_concat]
      cases happening with
      | notice line =>
          change (Mailbox.deliver line _).2.deactivation = _
          rw [Mailbox.deactivation_deliver, ih]
          cases hReport : Report.deactivation? line with
          | none => simp [Losses.note, hReport]
          | some context => simp [Losses.note, hReport]
      | asked question answer =>
          cases question with
          | takeDeactivation => rfl
          | _ => exact ih

/- What was lost when the updater last asked for it. -/
theorem Course.losses_before
    {c : Course}
    {past rest : List Happening}
    {answer : Option UInt8}
    (hPast :
      c.past =
        past ++ .asked .takeDeactivation answer :: rest)
    (hLast :
      ∀ other, .asked .takeDeactivation other ∉ rest) :
    c.losses.before =
      ({ c with past := past } : Course).losses.since := by
  unfold losses
  rw [hPast, List.foldl_append, List.foldl_cons]
  clear hPast
  induction rest using List.reverseRecOn with
  | nil => rfl
  | append_singleton rest happening ih =>
      rw [List.foldl_concat]
      have hBefore :
          ∀ losses : Losses,
            (losses.note happening).before = losses.before := by
        intro losses
        cases happening with
        | notice line => rfl
        | asked question other =>
            cases question with
            | takeDeactivation =>
                exact absurd (by simp) (hLast other)
            | _ => rfl
      rw [hBefore]
      apply ih
      intro other hMem
      exact hLast other (List.mem_append_left _ hMem)

------------------------------------------------------------
-- Restored Data
------------------------------------------------------------

namespace Exchange

/- The updater asked which context was lost. -/
def asksLoss : Exchange → Bool
| ⟨.takeDeactivation, _⟩ => true
| _ => false

/- A command to activate packet data was sent. -/
def isActivation : Exchange → Bool
| ⟨.command (.mapContext _ _), _⟩ => true
| ⟨.command (.activateContext _), _⟩ => true
| _ => false

end Exchange

end Update

/-
  Packet data is activated for the update: its context is mapped
  and, if the modem accepts that, activated.
-/
inductive Updater.Activates : List Exchange → Prop
| refused
    {reply : Reply}
    (hRefused : reply.outcome.isOk = false) :
    Activates
      [⟨.command (.mapContext dataProfile dataContext), reply⟩]
| sent
    {reply reply' : Reply}
    (hAccepted : reply.outcome.isOk = true) :
    Activates
      [⟨.command (.mapContext dataProfile dataContext), reply⟩,
        ⟨.command (.activateContext dataProfile), reply'⟩]

namespace Turn

/- The activation of packet data ahead of the first download. -/
def restoring
    (turn : Turn) : List Exchange :=
  (turn.talk.takeWhile (fun exchange =>
      ! exchange.isDownload)).filter
    Exchange.isActivation

end Turn

namespace Updater

variable
  {u next : Updater}
  {now : Instant}
  {talk : List Exchange}

/- Activating packet data sends one command or both. -/
theorem activateData_eq :
    activateData =
      .ask (.command (.mapContext dataProfile dataContext))
        (fun reply =>
          if reply.outcome.isOk then
            .ask (.command (.activateContext dataProfile))
              (fun reply' => .done reply'.outcome)
          else
            .done reply.outcome) := by
  have hMap :
      (Command.mapContext dataProfile dataContext).Fits := by
    decide
  have hActivate :
      (Command.activateContext dataProfile).Fits := by
    decide
  unfold activateData Procedure.activateContext Talk.carryOut
    Procedure.carryOutAll Procedure.carryOutAll
    Procedure.carryOutAll Procedure.carryOut Procedure.send
  rw [if_pos hMap, if_pos hActivate]
  refine congrArg (Dialogue.ask _) (funext fun reply => ?_)
  change
    Dialogue.run Talk.command
        (if reply.outcome.isOk then _ else _) =
      _
  cases reply.outcome.isOk with
  | true =>
      refine congrArg (Dialogue.ask _) (funext fun reply' => ?_)
      rcases reply' with ⟨outcome, lines⟩
      cases outcome <;> rfl
  | false => rfl

/- Activating packet data sends one command or both. -/
theorem unfolds_activateData
    {outcome : Outcome}
    (hUnfolds : activateData.Unfolds talk (some outcome)) :
    Activates talk := by
  rw [activateData_eq, Dialogue.unfolds_ask] at hUnfolds
  rcases hUnfolds with ⟨reply, rest, rfl, hRest⟩
  cases hAccepted : reply.outcome.isOk with
  | true =>
      rw [hAccepted, if_pos rfl, Dialogue.unfolds_ask] at hRest
      rcases hRest with ⟨reply', rest, rfl, hDone⟩
      rw [((Dialogue.unfolds_done _ _ _).mp hDone).1]
      exact .sent hAccepted
  | false =>
      rw [hAccepted, if_neg Bool.false_ne_true] at hRest
      rw [((Dialogue.unfolds_done _ _ _).mp hRest).1]
      exact .refused hAccepted

/- An exchange that neither restores packet data nor downloads. -/
def Plain
    (exchange : Exchange) : Prop :=
  exchange.asksLoss = false ∧
    exchange.isActivation = false ∧
      exchange.isDownload = false

/- A question that is plain, however it is answered. -/
def AskedPlainly
    (question : Question) : Prop :=
  ∀ answer, Plain ⟨question, answer⟩

/- What is only asked plainly is plain. -/
theorem plain_of_asks
    {α : Type}
    {d : Talk α}
    {result : Option α}
    (hUnfolds : d.Unfolds talk result)
    (hAsks : d.Asks AskedPlainly) :
    ∀ exchange ∈ talk, Plain exchange := by
  intro exchange hMem
  exact hUnfolds.asks hAsks exchange hMem exchange.answer

theorem attemptFailed_plain :
    u.attemptFailed.Asks AskedPlainly :=
  attemptFailed_asks
    (fun _ => ⟨rfl, rfl, rfl⟩) (fun _ => ⟨rfl, rfl, rfl⟩)

theorem deleteStaleImage_plain
    (file : FileName) :
    (deleteStaleImage file).Asks AskedPlainly :=
  deleteStaleImage_asks
    (fun _ => ⟨rfl, rfl, rfl⟩) (fun _ => ⟨rfl, rfl, rfl⟩)

/- To restore packet data the updater asks whether it was lost. -/
theorem unfolds_restoreData
    {restored : Unit}
    (hUnfolds : restoreData.Unfolds talk (some restored)) :
    ∃ lost rest,
      talk = ⟨.takeDeactivation, lost⟩ :: rest ∧
        (lost = some dataContext ∧ Activates rest ∨
          lost ≠ some dataContext ∧ rest = []) := by
  unfold restoreData at hUnfolds
  simp only [Talk.takeDeactivation, Dialogue.ask_bind,
    Dialogue.done_bind, Dialogue.unfolds_ask] at hUnfolds
  rcases hUnfolds with ⟨lost, rest, rfl, hRest⟩
  refine ⟨lost, rest, rfl, ?_⟩
  split at hRest
  · next hLost =>
      rw [Dialogue.unfolds_bind] at hRest
      rcases hRest with
        ⟨outcome, first, second, rfl, hActivate, hDone⟩
      rw [((Dialogue.unfolds_done _ _ _).mp hDone).1,
        List.append_nil]
      exact .inl ⟨hLost, unfolds_activateData hActivate⟩
  · next hOther =>
      exact
        .inr ⟨hOther, ((Dialogue.unfolds_done _ _ _).mp hRest).1⟩

/- Before the download, packet data is restored if it was lost. -/
theorem restored_of_beginAttempt
    (hUnfolds :
      (u.beginAttempt now).Unfolds talk (some next)) :
    ∃ lost restored plain reply rest,
      talk =
          ⟨.takeDeactivation, lost⟩ ::
            (restored ++ plain ++
              ⟨.command (.download u.checkpoint.path.file),
                  reply⟩ ::
                rest) ∧
        (lost = some dataContext ∧ Activates restored ∨
          lost ≠ some dataContext ∧ restored = []) ∧
          (∀ exchange ∈ plain, Plain exchange) ∧
            ∀ exchange ∈ rest, Plain exchange := by
  unfold beginAttempt Procedure.startDownload at hUnfolds
  dsimp only at hUnfolds
  rw [Talk.carryOut_carryOut, if_pos (Command.fits_download _)]
    at hUnfolds
  simp only [Talk.clearCompletion, Talk.count,
    Dialogue.ask_bind, Dialogue.done_bind,
    Dialogue.unfolds_ask, Dialogue.unfolds_bind] at hUnfolds
  rcases hUnfolds with
    ⟨_, _, _, rfl, hRestored, _, deleted, _, rfl, hDeleted, _,
      _, rfl, _, _, rfl, reply, rest, rfl, hEnd⟩
  rcases unfolds_restoreData hRestored with
    ⟨lost, restored, rfl, hLost⟩
  have hPlain :
      ∀ exchange ∈ deleted, Plain exchange :=
    plain_of_asks hDeleted (deleteStaleImage_plain _)
  have hRest :
      ∀ exchange ∈ rest, Plain exchange := by
    split at hEnd
    · intro exchange hMem
      rw [((Dialogue.unfolds_done _ _ _).mp hEnd).1] at hMem
      cases hMem
    · exact plain_of_asks hEnd attemptFailed_plain
  refine
    ⟨lost, restored,
      deleted ++
        [⟨.clearCompletion, ()⟩, ⟨.count .downloadAttempt, ()⟩],
      reply, rest, ?_, hLost, ?_, hRest⟩
  · simp
  · intro exchange hMem
    simp only [List.mem_append, List.mem_cons,
      List.not_mem_nil, or_false] at hMem
    rcases hMem with hMem | rfl | rfl
    · exact hPlain exchange hMem
    · exact ⟨rfl, rfl, rfl⟩
    · exact ⟨rfl, rfl, rfl⟩

/- Only the download asks which context was lost. -/
theorem not_asksLoss_of_mayAsk
    {entered : Bool}
    {stage : Stage}
    {question : Question}
    (hStage : stage ≠ .downloadReady)
    (hAsk : u.MayAsk entered stage question) :
    question ≠ .takeDeactivation := by
  rintro rfl
  cases stage <;> simp [MayAsk, storing] at hAsk hStage

end Updater

------------------------------------------------------------
-- Turns that Restore
------------------------------------------------------------

namespace Turn

variable
  {s : Setting}
  {turns : List Turn}
  {turn : Turn}
  {l l' : Life}
  {now : Instant}
  {rest : List Exchange}

/- In the turn, no attempt is made: no loss is asked for. -/
def NoAttempt
    (turn : Turn) : Prop :=
  ∀ exchange ∈ turn.talk,
    exchange.asksLoss = false ∧ exchange.isDownload = false

/-
  In the turn, an attempt is made. The updater asks which
  context was lost, restores packet data if it was that of the
  update, and sends the command to download, each once.
-/
structure MakesAttempt
    (turn : Turn)
    (lost : Option UInt8)
    (restored : List Exchange) : Prop where
  talk :
    ∃ front plain file reply rest,
      turn.talk =
          front ++
            ⟨.takeDeactivation, lost⟩ ::
              (restored ++ plain ++
                ⟨.command (.download file), reply⟩ :: rest) ∧
        (∀ exchange ∈ front, Updater.Plain exchange) ∧
          (∀ exchange ∈ plain, Updater.Plain exchange) ∧
            ∀ exchange ∈ rest, Updater.Plain exchange
  restores :
    lost = some Updater.dataContext ∧
        Updater.Activates restored ∨
      lost ≠ some Updater.dataContext ∧ restored = []

/- Where nothing is about an attempt, none is made, -/
theorem Apart.noAttempt
    (hApart : turn.Apart)
    (hLoss :
      ∀ exchange ∈ turn.talk,
        exchange.question ≠ .takeDeactivation) :
    turn.NoAttempt := by
  intro exchange hMem
  constructor
  · unfold Update.Exchange.asksLoss
    split
    · exact absurd rfl (hLoss _ hMem)
    · rfl
  · have hOther := List.filter_eq_nil_iff.mp hApart _ hMem
    rw [Bool.eq_false_iff]
    intro hDownload
    exact
      hOther (Exchange.isAttempt_of_isDownload _ hDownload)

/- as without work, -/
theorem Rests.noAttempt
    (hRests : turn.Rests) :
    turn.NoAttempt := by
  refine hRests.apart.noAttempt fun exchange hMem hLoss => ?_
  have hQuiet := hRests.quiet exchange hMem
  rw [hLoss] at hQuiet
  simp [Updater.quietQuestions, Updater.requestQuestions]
    at hQuiet

/- and while an attempt is pending. -/
theorem Works.noAttempt_of_pending
    {since : Instant}
    (hWorks : turn.Works now rest)
    (hStage : turn.before.stage = .downloadReady)
    (hPending : turn.before.time.pendingSince = some since) :
    turn.NoAttempt := by
  have hReady :
      (turn.before.entering now).time.pendingSince =
        some since :=
    hPending
  have hTended := hWorks.downloads hStage
  have hAsks :
      ((turn.before.entering now).downloadReady now).Asks
        Updater.AskedPlainly := by
    unfold Updater.downloadReady
    rw [hReady]
    simp only [Talk.takeCompletion, Dialogue.ask_bind,
      Dialogue.done_bind, Dialogue.asks_ask]
    refine ⟨fun _ => ⟨rfl, rfl, rfl⟩, fun completion => ?_⟩
    cases completion with
    | some done => simp [Updater.attemptFailed_plain]
    | none => simp [Updater.attemptFailed_plain]
  refine hWorks.forall_talk ⟨rfl, rfl⟩ ⟨rfl, rfl⟩ ?_
  intro exchange hMem
  have hPlain :=
    Updater.plain_of_asks hTended hAsks exchange hMem
  exact ⟨hPlain.1, hPlain.2.2⟩

/- A turn makes one attempt, or none. -/
theorem makesAttempt_or_not
    (hTakes : turn.Takes s l l') :
    turn.NoAttempt ∨
      ∃ lost restored, turn.MakesAttempt lost restored := by
  rcases works_or_rests hTakes.unfolds with
    ⟨now, rest, hWorks⟩ | hRests
  · by_cases hStage : turn.before.stage = .downloadReady
    · cases hPending : turn.before.time.pendingSince with
      | some since =>
          exact
            .inl (hWorks.noAttempt_of_pending hStage hPending)
      | none =>
          have hReady :
              (turn.before.entering now).time.pendingSince =
                none :=
            hPending
          have hBegun := hWorks.downloads hStage
          unfold Updater.downloadReady at hBegun
          rw [hReady] at hBegun
          rcases Updater.restored_of_beginAttempt hBegun with
            ⟨lost, restored, plain, reply, rest, hTalk, hLost,
              hPlain⟩
          refine
            .inr
              ⟨lost, restored,
                ⟨[⟨.hearNotices, ()⟩, ⟨.now, now⟩], plain, _,
                  reply, rest, ?_, ?_, hPlain⟩,
                hLost⟩
          · rw [hWorks.talk, hTalk]
            rfl
          · intro exchange hMem
            simp only [List.mem_cons, List.not_mem_nil,
              or_false] at hMem
            rcases hMem with rfl | rfl
            · exact ⟨rfl, rfl, rfl⟩
            · exact ⟨rfl, rfl, rfl⟩
    · refine .inl ((hWorks.apart hStage).noAttempt ?_)
      refine hWorks.forall_talk (by simp) (by simp) ?_
      intro exchange hMem
      exact
        Updater.not_asksLoss_of_mayAsk hStage
          (hWorks.work.asks Updater.work_asks exchange hMem)
  · exact .inl hRests.noAttempt

variable
  {lost : Option UInt8}
  {restored : List Exchange}

/- What is restored is activated. -/
theorem MakesAttempt.activations
    (hMakes : turn.MakesAttempt lost restored) :
    ∀ exchange ∈ restored,
      exchange.asksLoss = false ∧
        exchange.isActivation = true ∧
          exchange.isDownload = false := by
  rcases hMakes.restores with ⟨-, hActivates⟩ | ⟨-, rfl⟩
  · cases hActivates with
    | refused hRefused =>
        simp only [List.mem_singleton, forall_eq]
        exact ⟨rfl, rfl, rfl⟩
    | sent hAccepted =>
        simp only [List.mem_cons, List.not_mem_nil, or_false,
          forall_eq_or_imp, forall_eq]
        exact ⟨⟨rfl, rfl, rfl⟩, rfl, rfl, rfl⟩
  · intro exchange hMem
    cases hMem

/- An attempt asks for a loss and downloads, each once. -/
theorem MakesAttempt.counts
    (hMakes : turn.MakesAttempt lost restored) :
    turn.talk.countP Exchange.asksLoss = 1 ∧
      turn.talk.countP Exchange.isDownload = 1 := by
  have hRestored := hMakes.activations
  rcases hMakes.talk with
    ⟨front, plain, file, reply, rest, hTalk, hFront, hPlain,
      hRest⟩
  have hZero :
      ∀ (part : List Exchange) (p : Exchange → Bool),
        (∀ exchange ∈ part, p exchange = false) →
          part.countP p = 0 := by
    intro part p hNone
    rw [List.countP_eq_zero]
    intro exchange hMem
    rw [hNone exchange hMem]
    exact Bool.false_ne_true
  constructor
  · rw [hTalk, List.countP_append, List.countP_cons,
      List.countP_append, List.countP_append, List.countP_cons,
      hZero front _ fun e hMem => (hFront e hMem).1,
      hZero restored _ fun e hMem => (hRestored e hMem).1,
      hZero plain _ fun e hMem => (hPlain e hMem).1,
      hZero rest _ fun e hMem => (hRest e hMem).1]
    rfl
  · rw [hTalk, List.countP_append, List.countP_cons,
      List.countP_append, List.countP_append, List.countP_cons,
      hZero front _ fun e hMem => (hFront e hMem).2.2,
      hZero restored _ fun e hMem => (hRestored e hMem).2.2,
      hZero plain _ fun e hMem => (hPlain e hMem).2.2,
      hZero rest _ fun e hMem => (hRest e hMem).2.2]
    rfl

/- What is restored is what is activated before the download. -/
theorem MakesAttempt.restoring_eq
    (hMakes : turn.MakesAttempt lost restored) :
    turn.restoring = restored := by
  have hRestored := hMakes.activations
  rcases hMakes.talk with
    ⟨front, plain, file, reply, rest, hTalk, hFront, hPlain,
      -⟩
  have hBefore :
      turn.talk.takeWhile
          (fun exchange => ! exchange.isDownload) =
        front ++
          ⟨.takeDeactivation, lost⟩ :: (restored ++ plain) := by
    have hSplit :
        turn.talk =
          (front ++
              ⟨.takeDeactivation, lost⟩ ::
                (restored ++ plain)) ++
            ⟨.command (.download file), reply⟩ :: rest := by
      rw [hTalk]
      simp
    rw [hSplit, List.takeWhile_append_of_pos,
      List.takeWhile_cons_of_neg Bool.false_ne_true,
      List.append_nil]
    intro exchange hMem
    simp only [List.mem_append, List.mem_cons] at hMem
    rcases hMem with hMem | rfl | hMem | hMem
    · rw [(hFront exchange hMem).2.2]
      rfl
    · rfl
    · rw [(hRestored exchange hMem).2.2]
      rfl
    · rw [(hPlain exchange hMem).2.2]
      rfl
  have hNone :
      ∀ part : List Exchange,
        (∀ exchange ∈ part, exchange.isActivation = false) →
          part.filter Exchange.isActivation = [] := by
    intro part hNone
    rw [List.filter_eq_nil_iff]
    intro exchange hMem
    rw [hNone exchange hMem]
    exact Bool.false_ne_true
  have hAll :
      restored.filter Exchange.isActivation = restored :=
    List.filter_eq_self.mpr fun exchange hMem =>
      (hRestored exchange hMem).2.1
  unfold restoring
  rw [hBefore, List.filter_append,
    hNone front fun e hMem => (hFront e hMem).2.1,
    List.nil_append, List.filter_cons_of_neg Bool.false_ne_true,
    List.filter_append, hAll,
    hNone plain fun e hMem => (hPlain e hMem).2.1,
    List.append_nil]

/- The loss is the last one since the attempt before it. -/
theorem MakesAttempt.lost_eq
    (hMakes : turn.MakesAttempt lost restored)
    (hTakes : turn.Takes s l l')
    (hHonest : l'.course.Honest) :
    lost = l'.course.losses.before.getLast? := by
  have hRestored := hMakes.activations
  rcases hMakes.talk with
    ⟨front, plain, file, reply, rest, hTalk, -, hPlain, hRest⟩
  rcases hTakes.exists_added with ⟨added, hPast, hAdded⟩
  rw [hTalk] at hAdded
  rcases List.filterMap_eq_append_iff.mp hAdded.symm with
    ⟨opening, later, rfl, -, hLater⟩
  rcases List.filterMap_eq_cons_iff.mp hLater with
    ⟨notices, happening, back, rfl, -, hAsked, hBack⟩
  rw [Happening.eq_asked_of_exchange hAsked] at hPast
  have hPast' :
      l'.course.past =
        (l.course.past ++ opening ++ notices) ++
          .asked .takeDeactivation lost :: back := by
    rw [hPast]
    simp
  have hLast :
      ∀ other, .asked .takeDeactivation other ∉ back := by
    intro other hMem
    have hIn :
        (⟨.takeDeactivation, other⟩ : Exchange) ∈
          restored ++ plain ++
            ⟨.command (.download file), reply⟩ :: rest := by
      rw [← hBack, List.mem_filterMap]
      exact ⟨_, hMem, rfl⟩
    simp only [List.mem_append, List.mem_cons] at hIn
    rcases hIn with (hIn | hIn) | hIn | hIn
    · cases (hRestored _ hIn).1
    · cases (hPlain _ hIn).1
    · cases hIn
    · cases (hRest _ hIn).1
  have hTruthful :=
    hHonest (l.course.past ++ opening ++ notices)
      .takeDeactivation lost ⟨back, by rw [hPast']; simp⟩
  change lost = (Course.mailbox _).deactivation at hTruthful
  rw [Update.Course.losses_before hPast' hLast, hTruthful,
    Update.Course.mailbox_deactivation]

/- Packet data is activated before the download. -/
def Restores
    (turn : Turn) : Prop :=
  Updater.Activates turn.restoring

end Turn

------------------------------------------------------------
-- Restored When Lost Last
------------------------------------------------------------

namespace Life

/-
  In each turn of a run, the updater asks for a lost context as
  often as it sends the command to download, which is once at
  most. So what was lost since it asked before is what was lost
  since the attempt before. If the last context among that is
  the one of the update, packet data is activated before the
  download; if it is another one, or there is none, no command
  to activate is sent. Other contexts that were lost before the
  last one have no effect, that of the update included.
-/
theorem data_restored_iff_lost_last
    {s : Setting}
    {turns : List Turn}
    {turn : Turn}
    {l l' : Life}
    (hRun : l.Run s turns)
    (hTakes : turn.Takes s l l') :
    turn.talk.countP Exchange.asksLoss =
        turn.talk.countP Exchange.isDownload ∧
      turn.talk.countP Exchange.isDownload ≤ 1 ∧
        (turn.talk.any Exchange.isDownload →
          if l'.course.losses.before.getLast? =
              some Updater.dataContext then
            turn.Restores
          else
            turn.restoring = []) := by
  have hHonest : l'.course.Honest := by
    rcases hRun.takes hTakes with ⟨turns', hNext⟩
    exact hNext.honest _ hTakes.after
  rcases Turn.makesAttempt_or_not hTakes with
    hNone | ⟨lost, restored, hMakes⟩
  · have hLoss :
        turn.talk.countP Exchange.asksLoss = 0 :=
      List.countP_eq_zero.mpr fun exchange hMem => by
        simp [(hNone exchange hMem).1]
    have hDownload :
        turn.talk.countP Exchange.isDownload = 0 :=
      List.countP_eq_zero.mpr fun exchange hMem => by
        simp [(hNone exchange hMem).2]
    refine ⟨hLoss.trans hDownload.symm, by omega, ?_⟩
    intro hAny
    rcases List.any_eq_true.mp hAny with ⟨exchange, hMem, hIs⟩
    rw [(hNone exchange hMem).2] at hIs
    cases hIs
  · rcases hMakes.counts with ⟨hLoss, hDownload⟩
    refine ⟨hLoss.trans hDownload.symm, hDownload.le, fun _ => ?_⟩
    rw [← hMakes.lost_eq hTakes hHonest]
    unfold Turn.Restores
    rw [hMakes.restoring_eq]
    rcases hMakes.restores with
      ⟨hOwn, hActivates⟩ | ⟨hOther, hNothing⟩
    · rw [if_pos hOwn]
      exact hActivates
    · rw [if_neg hOther]
      exact hNothing

/- A smooth run in which contexts are lost before its download. -/
def losing
    (contexts : List String) : Script :=
  { Script.smooth with
    notices := fun
      | _, .takeDeactivation =>
          contexts.map ("+CGEV: ME PDN DEACT " ++ ·)
      | _, _ => [] }

/- What is replayed behind a life is a turn of a run. -/
theorem takes_of_replay
    {script : Script}
    {turn : Turn}
    {l : Life}
    (hLived : l.Lived .board)
    (hTurn : Replay.turn? script .tick ⟨[], l⟩ = some turn) :
    (∃ turns, l.Run .board turns) ∧
      turn.Takes .board l (Replay.next script .tick ⟨[], l⟩) := by
  have hTakes := Replay.takes_next hTurn
  exact ⟨hLived.exists_run hTakes.before, hTakes⟩

/- The context of the update is lost behind another, and restored. -/
theorem data_restored_on_smooth_run :
    ∃ (turns : List Turn) (turn : Turn),
      (smooth 8).Run .board turns ∧
        turn.Takes .board (smooth 8)
            (Replay.next (losing ["2", "1"]) .tick
              ⟨[], smooth 8⟩) ∧
          turn.talk.any Exchange.isDownload ∧ turn.Restores := by
  have hMoment :
      (Replay.turn? (losing ["2", "1"]) .tick
            ⟨[], smooth 8⟩).any
          (fun turn => turn.talk.any Exchange.isDownload) ∧
        (Replay.next (losing ["2", "1"]) .tick
            ⟨[], smooth 8⟩).course.losses.before.getLast? =
          some Updater.dataContext := by
    decide +kernel
  rcases hMoment with ⟨hSent, hLost⟩
  rcases (Option.any_eq_true _ _).mp hSent with
    ⟨turn, hTurn, hSent⟩
  rcases takes_of_replay (lived_smooth 8) hTurn with
    ⟨⟨turns, hRun⟩, hTakes⟩
  rcases data_restored_iff_lost_last hRun hTakes with
    ⟨-, -, hRestored⟩
  rw [if_pos hLost] at hRestored
  exact ⟨turns, turn, hRun, hTakes, hSent, hRestored hSent⟩

/-
  That the context of the update was lost since the attempt
  before is not enough: if another one is lost after it, the
  download is told to start without packet data.
-/
theorem data_not_restored_behind_other :
    ¬ ∀ (turns : List Turn) (turn : Turn) (l l' : Life),
      l.Run .board turns →
        turn.Takes .board l l' →
          turn.talk.any Exchange.isDownload →
            Updater.dataContext ∈ l'.course.losses.before →
              turn.Restores := by
  intro hAll
  have hMoment :
      (Replay.turn? (losing ["1", "2"]) .tick
            ⟨[], smooth 8⟩).any
          (fun turn =>
            turn.talk.any Exchange.isDownload &&
              turn.restoring.isEmpty) ∧
        Updater.dataContext ∈
          (Replay.next (losing ["1", "2"]) .tick
            ⟨[], smooth 8⟩).course.losses.before := by
    decide +kernel
  rcases hMoment with ⟨hSent, hLost⟩
  rcases (Option.any_eq_true _ _).mp hSent with
    ⟨turn, hTurn, hSent⟩
  rw [Bool.and_eq_true, List.isEmpty_iff] at hSent
  rcases takes_of_replay (lived_smooth 8) hTurn with
    ⟨⟨turns, hRun⟩, hTakes⟩
  have hRestores : turn.Restores :=
    hAll turns turn _ _ hRun hTakes hSent.1 hLost
  unfold Turn.Restores at hRestores
  rw [hSent.2] at hRestores
  cases hRestores

end Life

end Fota
