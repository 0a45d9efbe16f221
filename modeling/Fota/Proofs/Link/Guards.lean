import Fota.Proofs.Link.Supervision

/-
  This file shows that every attempt of a supervised link to
  attach is guarded by its watchdog, and that none outlasts it.

  Key definitions include:
    * `Link.Timeline`
    * `Link.Guarded`

  The main statement is `Link.attempts_guarded`.
-/

namespace Fota

namespace Link

------------------------------------------------------------
-- Timelines
------------------------------------------------------------

/-
  What a log says of time: the last reading of the clock, and
  the reading at which the last attempt to attach was begun.
-/
structure Timeline where
  reading : Option Instant
  begun : Option Instant
deriving DecidableEq, Repr

namespace Timeline

/- Nothing is known before the clock is read. -/
def empty : Timeline where
  reading := none
  begun := none

/- An attempt is counted right after the clock is read. -/
def note :
    Timeline → Exchange → Timeline
| t, ⟨.now, now⟩ => { t with reading := some now }
| t, ⟨.count .connectAttempt, _⟩ => { t with begun := t.reading }
| t, _ => t

/- The timeline of a log. -/
def ofLog
    (log : List Exchange) : Timeline :=
  log.foldl note empty

end Timeline

------------------------------------------------------------
-- Guarded Links
------------------------------------------------------------

/- Between operations an attempt is under guard. -/
structure Guarded
    (policy : Policy)
    (l : Link)
    (t : Timeline) : Prop where
  tuned : l.policy = policy
  power : l.powered = l.initialized
  armed :
    l.connecting →
      l.powered ∧
        l.watchdog.duration = policy.connectWatchdog ∧
          ∃ base,
            l.watchdog.armedAt = some base ∧ t.begun = some base
  disarmed : ¬ l.connecting → l.watchdog.armedAt = none
  quiet : l.listening.active → ¬ l.connecting

variable
  {policy : Policy}
  {l l' : Link}
  {t : Timeline}
  {talk : List Exchange}

theorem PowersUp.timeline
    {result : Except Fault Unit}
    (hPower : PowersUp l talk result l') :
    talk.foldl Timeline.note t = t := by
  cases hPower <;> rfl

theorem Drops.timeline
    {reason : DropReason}
    (hDrop : Drops reason l talk l') :
    talk.foldl Timeline.note t = t := by
  cases hDrop with
  | nothing hNone =>
      rfl
  | drop hSome answer =>
      rw [List.foldl_append]
      split <;> rfl

/- Powering up changes the power alone. -/
theorem PowersUp.link
    {result : Except Fault Unit}
    (hPower : PowersUp l talk result l') :
    l' = l ∨
      l' = { l with powered := true, initialized := true } := by
  cases hPower with
  | already hOn =>
      exact .inl rfl
  | refused hOff fault =>
      exact .inl rfl
  | done hOff =>
      exact .inr rfl

theorem PowersUp.powered
    (hPower : PowersUp l talk (.ok ()) l') :
    l'.powered := by
  cases hPower with
  | already hOn =>
      exact hOn
  | done hOff =>
      rfl

theorem Attempts.timeline
    {now : Instant}
    (hAttempt : Attempts l now talk l') :
    talk.foldl Timeline.note t = t := by
  cases hAttempt with
  | unknown hPower =>
      rw [List.foldl_append, hPower.timeline]
      rfl
  | unpowered hPower =>
      rw [List.foldl_append, hPower.timeline]
      rfl
  | held hPower hHeld =>
      rw [List.foldl_append, hPower.timeline]
      rfl
  | refused hPower hFree fault =>
      rw [List.foldl_append, hPower.timeline]
      rfl
  | begun hPower hFree =>
      rw [List.foldl_append, hPower.timeline]
      rfl

/- A link without an attempt and with a disarmed watchdog. -/
theorem guarded_idle
    (hTuned : l.policy = policy)
    (hPower : l.powered = l.initialized)
    (hIdle : ¬ l.connecting)
    (hDisarmed : l.watchdog.armedAt = none) :
    Guarded policy l t where
  tuned := hTuned
  power := hPower
  armed hUnderWay := absurd hUnderWay hIdle
  disarmed _ := hDisarmed
  quiet _ := hIdle

/- An attempt that was not begun leaves the watchdog disarmed. -/
theorem Attempts.guarded
    {now : Instant}
    (hAttempt : Attempts l now talk l')
    (hGuarded : Guarded policy l t)
    (hFree : ¬ (l.connecting ∧ l.initialized))
    (hAlone : ¬ l.listening.isEngaged) :
    Guarded policy l' ⟨some now, some now⟩ := by
  have hIdle : ¬ l.connecting := by
    intro hUnderWay
    have hOn := (hGuarded.armed hUnderWay).1
    rw [hGuarded.power] at hOn
    exact hFree ⟨hUnderWay, hOn⟩
  have hQuiet : ¬ l.listening.active := by
    intro hActive
    simp [Listening.isEngaged, hActive] at hAlone
  have hLink : ∀ {talk result l'},
      PowersUp (l.armed now) talk result l' →
        l'.policy = policy ∧ l'.powered = l'.initialized ∧
          ¬ l'.connecting ∧ ¬ l'.listening.active ∧
            l'.watchdog = ⟨some now, policy.connectWatchdog⟩ := by
    intro talk result l' hPower
    have hArmed :
        (l.armed now).watchdog =
          ⟨some now, policy.connectWatchdog⟩ := by
      simp [armed, Watchdog.arm, hGuarded.tuned]
    rcases hPower.link with rfl | rfl
    · exact
        ⟨hGuarded.tuned, hGuarded.power, hIdle, hQuiet, hArmed⟩
    · exact ⟨hGuarded.tuned, rfl, hIdle, hQuiet, hArmed⟩
  cases hAttempt with
  | unknown hPower =>
      rcases hLink hPower with ⟨hTuned, hPower, hIdle, _, _⟩
      unfold listenForCredentials
      split <;> exact guarded_idle hTuned hPower hIdle rfl
  | unpowered hPower =>
      rcases hLink hPower with ⟨hTuned, hPower, hIdle, _, _⟩
      exact guarded_idle hTuned hPower hIdle rfl
  | held hPower hHeld =>
      rcases hLink hPower with ⟨hTuned, hPower, hIdle, _, _⟩
      exact guarded_idle hTuned hPower hIdle rfl
  | refused hPower hFree fault =>
      rcases hLink hPower with ⟨hTuned, hPower, hIdle, _, _⟩
      exact guarded_idle hTuned hPower Bool.false_ne_true rfl
  | begun hPower hFree =>
      rcases hLink hPower with
        ⟨hTuned, hSame, _, hQuiet, hArmed⟩
      exact
        { tuned := hTuned
          power := hSame
          armed := fun _ =>
            ⟨hPower.powered, congrArg _ hArmed, now,
              congrArg _ hArmed, rfl⟩
          disarmed := fun hIdle => absurd rfl hIdle
          quiet := fun hActive => absurd hActive hQuiet }

theorem Drops.guarded
    {reason : DropReason}
    (hDrop : Drops reason l talk l')
    (hTuned : l.policy = policy)
    (hPower : l.powered = l.initialized)
    (hDisarmed : ¬ l.connecting → l.watchdog.armedAt = none) :
    Guarded policy l' t := by
  cases hDrop with
  | nothing hNone =>
      exact guarded_idle hTuned hPower hNone.1 (hDisarmed hNone.1)
  | drop hSome answer =>
      exact guarded_idle hTuned hPower Bool.false_ne_true rfl

/- Listening that does not come on leaves the guard as it is. -/
theorem Guarded.listen
    {listening : Listening}
    (hGuarded : Guarded policy l t)
    (hActive : listening.active → l.listening.active) :
    Guarded policy { l with listening := listening } t :=
  { hGuarded with
    quiet := fun hOn => hGuarded.quiet (hActive hOn) }

theorem active_update_of_ne_started
    {listening : Listening}
    {now : Instant}
    (hChange : (listening.update now).1 ≠ some .started)
    (hActive : (listening.update now).2.active) :
    listening.active := by
  unfold Listening.update at hChange hActive
  split at hActive
  · next hEnter =>
      rw [if_pos hEnter] at hChange
      exact absurd rfl hChange
  · split at hActive
    · exact hActive
    · next hOn =>
        simpa using hOn

/- Every move keeps attempts under guard. -/
theorem Move.guarded
    (hMove : Move l talk l')
    (hGuarded : Guarded policy l t) :
    Guarded policy l' (talk.foldl Timeline.note t) := by
  cases hMove with
  | request hRequest =>
      rcases hRequest with rfl | rfl
      · exact hGuarded.listen fun hActive => hActive
      · exact hGuarded.listen fun hActive => hActive
  | suppress hNew =>
      exact { hGuarded with }
  | powerUp hPower =>
      rw [hPower.timeline]
      rcases hPower.link with rfl | rfl
      · exact hGuarded
      · exact
          { hGuarded with
            power := rfl
            armed := fun hUnderWay =>
              ⟨rfl, (hGuarded.armed hUnderWay).2⟩ }
  | powerDown hOn hDown =>
      exact
        guarded_idle hGuarded.tuned rfl hDown.1
          (hGuarded.disarmed hDown.1)
  | powerStays hOn hDown fault =>
      exact hGuarded
  | drop hDrop =>
      rw [hDrop.timeline]
      exact
        hDrop.guarded hGuarded.tuned hGuarded.power
          hGuarded.disarmed
  | tick hQuiet =>
      have hListen :=
        hGuarded.listen
          (active_update_of_ne_started
            (by rw [hQuiet]; nofun))
      exact { hListen with }
  | tickStopped hStopped =>
      have hListen :=
        hGuarded.listen
          (active_update_of_ne_started
            (by rw [hStopped]; nofun))
      exact { hListen with }
  | tickStarted hStarted hDrop =>
      rw [List.foldl_cons, List.foldl_append, hDrop.timeline]
      exact
        hDrop.guarded hGuarded.tuned hGuarded.power
          hGuarded.disarmed
  | look ready =>
      exact hGuarded
  | arrive hNew =>
      exact
        guarded_idle hGuarded.tuned hGuarded.power
          Bool.false_ne_true rfl
  | arriveAgain hOld =>
      exact
        guarded_idle hGuarded.tuned hGuarded.power
          Bool.false_ne_true rfl
  | lose hIdle hOld =>
      exact { hGuarded with }
  | reset hUnderWay hDrop =>
      rw [List.foldl_cons, List.foldl_cons, hDrop.timeline]
      exact
        hDrop.guarded hGuarded.tuned hGuarded.power
          hGuarded.disarmed
  | attempt hFree hAlone hAttempt =>
      rw [List.foldl_cons, List.foldl_cons, List.foldl_cons,
        hAttempt.timeline]
      exact hAttempt.guarded hGuarded hFree hAlone

------------------------------------------------------------
-- Attempts under Way
------------------------------------------------------------

/- The exchange that counts an attempt. -/
def counted : Exchange :=
  ⟨.count .connectAttempt, ()⟩

/-
  An attempt that is under way after a move is counted in it, or
  was under way before it under the same watchdog.
-/
theorem Move.counted
    (hMove : Move l talk l')
    (hUnderWay : l'.connecting) :
    Link.counted ∈ talk ∨
      (l.connecting ∧ l'.watchdog = l.watchdog) := by
  cases hMove with
  | request hRequest =>
      exact .inr ⟨hUnderWay, rfl⟩
  | suppress hNew =>
      exact .inr ⟨hUnderWay, rfl⟩
  | powerUp hPower =>
      rcases hPower.link with rfl | rfl
      · exact .inr ⟨hUnderWay, rfl⟩
      · exact .inr ⟨hUnderWay, rfl⟩
  | powerDown hOn hDown =>
      exact .inr ⟨hUnderWay, rfl⟩
  | powerStays hOn hDown fault =>
      exact .inr ⟨hUnderWay, rfl⟩
  | drop hDrop =>
      exact absurd hUnderWay hDrop.down.1
  | tick hQuiet =>
      exact .inr ⟨hUnderWay, rfl⟩
  | tickStopped hStopped =>
      exact .inr ⟨hUnderWay, rfl⟩
  | tickStarted hStarted hDrop =>
      exact absurd hUnderWay hDrop.down.1
  | look ready =>
      exact .inr ⟨hUnderWay, rfl⟩
  | arrive hNew =>
      cases hUnderWay
  | arriveAgain hOld =>
      cases hUnderWay
  | lose hIdle hOld =>
      exact .inr ⟨hUnderWay, rfl⟩
  | reset hBefore hDrop =>
      exact absurd hUnderWay hDrop.down.1
  | attempt hFree hAlone hAttempt =>
      exact .inl (by simp [Link.counted])

theorem Moves.counted
    (hMoves : Moves l talk l')
    (hUnderWay : l'.connecting) :
    Link.counted ∈ talk ∨
      (l.connecting ∧ l'.watchdog = l.watchdog) := by
  induction hMoves with
  | nil l =>
      exact .inr ⟨hUnderWay, rfl⟩
  | cons hMove hMoves ih =>
      rw [List.mem_append]
      rcases ih hUnderWay with hCounted | ⟨hBefore, hSame⟩
      · exact .inl (.inr hCounted)
      · rcases hMove.counted hBefore with
          hCounted | ⟨hOld, hOldSame⟩
        · exact .inl (.inl hCounted)
        · exact .inr ⟨hOld, hSame.trans hOldSame⟩

theorem idle_of_markConnected
    (hMark : l.markConnected.Unfolds talk (some l')) :
    ¬ l'.connecting := by
  unfold markConnected at hMark
  dsimp only at hMark
  split at hMark
  · rcases (Dialogue.unfolds_done _ _ _).mp hMark with ⟨_, rfl⟩
    exact Bool.false_ne_true
  · simp only [unfolds_setStatus, unfolds_announce,
      Dialogue.pure_eq_done, Dialogue.unfolds_done] at hMark
    rcases hMark with ⟨_, _, _, _, _, rfl⟩
    exact Bool.false_ne_true

/- Looking after an attempt leaves none whose time is up. -/
theorem due_of_superviseAttempt
    {now : Instant}
    (hSupervise :
      (l.superviseAttempt now).Unfolds talk (some l'))
    (hUnderWay : l'.connecting) :
    counted ∈ talk ∨
      (l'.watchdog = l.watchdog ∧ ¬ l.watchdog.Expired now) := by
  unfold superviseAttempt at hSupervise
  simp only [Talk.isReady, Dialogue.ask_bind,
    Dialogue.done_bind, Dialogue.unfolds_ask] at hSupervise
  rcases hSupervise with ⟨ready, rest, rfl, hSupervise⟩
  cases ready with
  | true =>
      rw [if_pos rfl] at hSupervise
      exact absurd hUnderWay (idle_of_markConnected hSupervise)
  | false =>
      rw [if_neg Bool.false_ne_true] at hSupervise
      split at hSupervise
      · next hExpired =>
          simp only [Talk.count, Dialogue.ask_bind,
            Dialogue.done_bind, Dialogue.unfolds_ask,
            Dialogue.unfolds_bind] at hSupervise
          rcases hSupervise with
            ⟨_, _, rfl, ⟨dropped, l₁⟩, talk, _, rfl, hDrop,
              ⟨connected, l₂⟩, more, _, rfl, hConnect, hDone⟩
          rcases (Dialogue.unfolds_done _ _ _).mp hDone with
            ⟨rfl, rfl⟩
          have hCounted : counted ∈ more := by
            rcases (moves_connect hConnect).counted hUnderWay with
              hCounted | ⟨hBefore, _⟩
            · exact hCounted
            · exact
                absurd hBefore (drops_of_unfolds hDrop).down.1
          exact .inl (by simp [hCounted])
      · next hLasting =>
          rcases (Dialogue.unfolds_done _ _ _).mp hSupervise with
            ⟨rfl, rfl⟩
          exact .inr ⟨rfl, hLasting⟩

/-
  After a round of supervision an attempt is under way that was
  counted in it, or one whose time is not up.
-/
theorem due_of_process
    (hProcess : l.process.Unfolds talk (some l')) :
    ∃ now rest,
      talk = ⟨.now, now⟩ :: rest ∧
        (l'.connecting →
          counted ∈ rest ∨
            (l'.watchdog = l.watchdog ∧
              ¬ l.watchdog.Expired now)) := by
  unfold process at hProcess
  simp only [Talk.now, Dialogue.ask_bind, Dialogue.done_bind,
    Dialogue.unfolds_ask, Dialogue.unfolds_bind] at hProcess
  rcases hProcess with
    ⟨now, _, rfl, l₁, talk, more, rfl, hUpdate, hSupervise⟩
  refine ⟨now, talk ++ more, rfl, ?_⟩
  intro hUnderWay
  rw [List.mem_append]
  have hMove := move_of_updateListening hUpdate
  split at hSupervise
  · next hBefore =>
      rcases due_of_superviseAttempt hSupervise hUnderWay with
        hCounted | ⟨hSame, hLasting⟩
      · exact .inl (.inr hCounted)
      · rcases hMove.counted hBefore with
          hCounted | ⟨_, hOldSame⟩
        · rcases List.mem_cons.mp hCounted with hClock | hCounted
          · cases hClock
          · exact .inl (.inl hCounted)
        · rw [hOldSame] at hSame hLasting
          exact .inr ⟨hSame, hLasting⟩
  · next hIdle =>
      have hMoves : Moves l₁ more l' := by
        split at hSupervise
        · next hOld =>
            exact moves_superviseLink hIdle hOld hSupervise
        · rcases (Dialogue.unfolds_done _ _ _).mp hSupervise with
            ⟨rfl, rfl⟩
          exact .nil _
      rcases hMoves.counted hUnderWay with hCounted | ⟨hBefore, _⟩
      · exact .inl (.inr hCounted)
      · exact absurd hBefore hIdle

/- A timeline changes with a reading and a counted attempt. -/
theorem Timeline.note_cases
    (t : Timeline)
    (exchange : Exchange) :
    (∃ now,
      exchange = ⟨.now, now⟩ ∧
        t.note exchange = { t with reading := some now }) ∨
      (exchange = counted ∧
          t.note exchange = { t with begun := t.reading }) ∨
        (exchange ≠ counted ∧ t.note exchange = t) := by
  rcases exchange with ⟨question, answer⟩
  cases question with
  | now =>
      exact .inl ⟨answer, rfl, rfl⟩
  | count counter =>
      cases counter <;> simp [counted, note]
  | _ =>
      simp [counted, note]

/- What is counted is begun at the last reading of the clock. -/
theorem Timeline.begun_of_reading
    {now : Instant}
    {rest : List Exchange}
    (hReading : t.reading = some now) :
    (counted ∉ rest ∧ (rest.foldl note t).begun = t.begun) ∨
      (counted ∈ rest ∧
        ∃ base,
          (rest.foldl note t).begun = some base ∧
            (base = now ∨ ⟨.now, base⟩ ∈ rest)) := by
  induction rest generalizing t now with
  | nil =>
      exact .inl ⟨List.not_mem_nil, rfl⟩
  | cons exchange rest ih =>
      rw [List.foldl_cons]
      rcases t.note_cases exchange with
        ⟨later, rfl, hNote⟩ | ⟨rfl, hNote⟩ | ⟨hOther, hNote⟩
      · rw [hNote]
        have hClock : counted ≠ ⟨.now, later⟩ :=
          nofun
        rcases ih (t := { t with reading := some later }) rfl with
          ⟨hNone, hBegun⟩ | ⟨hCounted, base, hBegun, hBase⟩
        · exact
            .inl
              ⟨List.not_mem_cons_of_ne_of_not_mem hClock hNone,
                hBegun⟩
        · refine
            .inr
              ⟨List.mem_cons_of_mem _ hCounted, base, hBegun,
                .inr ?_⟩
          rcases hBase with rfl | hBase
          · exact List.mem_cons_self
          · exact List.mem_cons_of_mem _ hBase
      · rw [hNote]
        refine .inr ⟨List.mem_cons_self, ?_⟩
        rcases ih (t := { t with begun := t.reading }) hReading with
          ⟨_, hBegun⟩ | ⟨_, base, hBegun, hBase⟩
        · exact ⟨now, hBegun.trans hReading, .inl rfl⟩
        · exact
            ⟨base, hBegun, hBase.imp id (List.mem_cons_of_mem _)⟩
      · rw [hNote]
        rcases ih hReading with
          ⟨hNone, hBegun⟩ | ⟨hCounted, base, hBegun, hBase⟩
        · exact
            .inl
              ⟨List.not_mem_cons_of_ne_of_not_mem hOther.symm
                hNone, hBegun⟩
        · exact
            .inr
              ⟨List.mem_cons_of_mem _ hCounted, base, hBegun,
                hBase.imp id (List.mem_cons_of_mem _)⟩

------------------------------------------------------------
-- Guarded Attempts
------------------------------------------------------------

/- The reading of the clock, if it is read. -/
def reading? :
    Exchange → Option Instant
| ⟨.now, now⟩ => some now
| _ => none

/- In a transcript the clock never goes back. -/
def Timely
    (talk : List Exchange) : Prop :=
  (talk.filterMap reading?).Pairwise
    fun earlier later => earlier.toNat ≤ later.toNat

instance
    (talk : List Exchange) :
    Decidable (Timely talk) := by
  unfold Timely
  infer_instance

variable
  {technology : Technology}
  {log : List Exchange}

theorem guarded_of_supervised
    (hSupervised : Supervised technology policy l log) :
    Guarded policy l (Timeline.ofLog log) :=
  hSupervised.invariant
    (guarded_idle rfl rfl Bool.false_ne_true rfl)
    (fun _ _ _ _ hMove hGuarded => hMove.guarded hGuarded)

/-
  The watchdog is armed exactly while an attempt is under way,
  for the time of the policy. The radio is then powered, and
  there is no listening. If that time is not zero, an attempt
  that is under way after a round of supervision was begun less
  than this time before the clock was read; one that was begun
  earlier has been given up for a new one.
-/
theorem attempts_guarded
    (hSupervised : Supervised technology policy l log) :
    l.watchdog.isArmed = l.connecting ∧
      (l.connecting →
        l.watchdog.duration = policy.connectWatchdog ∧
          l.powered) ∧
        l.powered = l.initialized ∧
          (l.listening.active → ¬ l.connecting) ∧
            ∀ talk l',
              0 < policy.connectWatchdog →
                l.process.Unfolds talk (some l') →
                  Timely talk →
                    ∃ now rest,
                      talk = ⟨.now, now⟩ :: rest ∧
                        (l'.connecting →
                          ∃ base,
                            (Timeline.ofLog (log ++ talk)).begun =
                                some base ∧
                              l'.watchdog.armedAt = some base ∧
                              now.toNat <
                                  base.toNat +
                                    policy.connectWatchdog.toNat ∧
                                (counted ∈ rest ∨
                                  (Timeline.ofLog log).begun =
                                    some base)) := by
  have hGuarded := guarded_of_supervised hSupervised
  have hArmed : l.watchdog.isArmed = l.connecting := by
    unfold Watchdog.isArmed
    cases hUnderWay : l.connecting with
    | true =>
        rcases (hGuarded.armed hUnderWay).2.2 with ⟨base, hBase, _⟩
        rw [hBase]
        rfl
    | false =>
        rw [hGuarded.disarmed (by simp [hUnderWay])]
        rfl
  refine
    ⟨hArmed,
      fun hUnderWay =>
        ⟨(hGuarded.armed hUnderWay).2.1,
          (hGuarded.armed hUnderWay).1⟩,
      hGuarded.power, hGuarded.quiet, ?_⟩
  intro talk l' hLong hProcess hTimely
  have hGuarded' :=
    guarded_of_supervised
      (hSupervised.operate .process hProcess)
  rcases due_of_process hProcess with ⟨now, rest, rfl, hDue⟩
  refine ⟨now, rest, rfl, ?_⟩
  intro hUnderWay
  rcases hGuarded'.armed hUnderWay with
    ⟨_, hLength, base, hBase, hBegun⟩
  refine ⟨base, hBegun, hBase, ?_⟩
  have hLog :
      Timeline.ofLog (log ++ ⟨.now, now⟩ :: rest) =
        rest.foldl Timeline.note
          { Timeline.ofLog log with reading := some now } := by
    unfold Timeline.ofLog
    rw [List.foldl_append]
    rfl
  have hLater : ∀ later, ⟨.now, later⟩ ∈ rest →
      now.toNat ≤ later.toNat := by
    intro later hMem
    have hReading : later ∈ rest.filterMap reading? :=
      List.mem_filterMap.mpr ⟨_, hMem, rfl⟩
    exact (List.pairwise_cons.mp hTimely).1 later hReading
  have hPositive : 0 < policy.connectWatchdog.toNat := hLong
  have hTime := hLog ▸ Timeline.begun_of_reading rfl
  rcases hTime with
    ⟨hNone, hSame⟩ | ⟨hCounted, later, hSome, hWhen⟩
  · rw [hSame] at hBegun
    rcases hDue hUnderWay with hCounted | ⟨hOld, hLasting⟩
    · exact absurd hCounted hNone
    · refine ⟨?_, .inr hBegun⟩
      rw [← hOld] at hLasting
      have hElapsed :
          ¬ base.Elapsed policy.connectWatchdog now := by
        intro hElapsed
        exact hLasting ⟨base, hBase, hLength ▸ hElapsed⟩
      unfold Instant.Elapsed Instant.since at hElapsed
      omega
  · rw [hSome] at hBegun
    cases hBegun
    refine ⟨?_, .inl hCounted⟩
    rcases hWhen with rfl | hMem
    · omega
    · have hLe := hLater _ hMem
      omega

/- The link whose second attempt is under way. -/
def retrying : Link :=
  { attempting with
    watchdog := ⟨some (.ofNat 400001), 300000⟩ }

/-
  What is asked when a round of supervision finds the first
  attempt too old. The radio refuses to disconnect.
-/
def lateRound : List Exchange :=
  [⟨.now, .ofNat 400000⟩, ⟨.isReady, false⟩,
    ⟨.count .watchdogReset, ()⟩,
    ⟨.showLink .cellular .disconnecting, ()⟩,
    ⟨.disconnect, .error .timeout⟩,
    ⟨.showLink .cellular .disconnected, ()⟩,
    ⟨.announce .cellular .disconnected, ()⟩,
    ⟨.isReady, false⟩, ⟨.now, .ofNat 400001⟩,
    ⟨.count .connectAttempt, ()⟩, ⟨.hasCredentials, true⟩,
    ⟨.showLink .cellular .connecting, ()⟩,
    ⟨.announce .cellular .connecting, ()⟩,
    ⟨.beginConnect, .ok ()⟩]

/- An attempt whose time is up is given up for a new one. -/
theorem attempts_guarded_past_watchdog :
    Supervised .cellular .standard attempting firstAttempt ∧
      attempting.process.Unfolds lateRound (some retrying) ∧
        Timely lateRound ∧
          retrying.connecting ∧
            ∃ base,
              retrying.watchdog.armedAt = some base ∧
                400000 < base.toNat + 300000 := by
  have hProcess :
      attempting.process.Unfolds lateRound (some retrying) :=
    (Dialogue.follow?_eq_some_iff _ _ _).mp rfl
  have hTimely : Timely lateRound := by
    decide
  rcases (attempts_guarded supervised_attempting).2.2.2.2
    lateRound retrying (by decide) hProcess hTimely with
    ⟨now, rest, hTalk, hUnderWay⟩
  have hFirst := (List.cons.inj hTalk).1
  cases hFirst
  rcases hUnderWay rfl with ⟨base, _, hBase, hTime, _⟩
  exact
    ⟨supervised_attempting, hProcess, hTimely, rfl, base, hBase,
      hTime⟩

end Link

end Fota
