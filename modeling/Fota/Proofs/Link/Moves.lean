import Fota.Link.Supervisor
import Fota.Proofs.Dialogue.Transcripts

/-
  This file defines the moves of a supervised link: everything
  that a supervisor does is a sequence of a few moves, each with
  the questions that it asks and what is answered to them. What
  every move keeps is kept by every operation.

  Key definitions include:
    * `Link.Drops`
    * `Link.PowersUp`
    * `Link.Attempts`
    * `Link.Move`
    * `Link.Moves`

  The main statements are `Link.moves_off`, `Link.moves_connect`
  and `Link.moves_process`.
-/

namespace Fota

namespace Link

/- A question of a supervisor and the answer to it. -/
abbrev Exchange : Type :=
  Dialogue.Exchange Question Answer

/- The status of the link is shown. -/
def shows
    (l : Link)
    (status : LinkStatus) : Exchange :=
  ⟨.showLink l.technology status, ()⟩

/- A change of the link is announced. -/
def tells
    (l : Link)
    (what : Announcement) : Exchange :=
  ⟨.announce l.technology what, ()⟩

------------------------------------------------------------
-- Parts of Moves
------------------------------------------------------------

/- The link is dropped, if there is one. -/
inductive Drops
    (reason : DropReason) :
    Link → List Exchange → Link → Prop where
| nothing
    {l : Link}
    (hNone : ¬ l.connecting ∧ ¬ l.connected) :
    Drops reason l [] l
| drop
    {l : Link}
    (hSome : l.connecting ∨ l.connected)
    (answer : Except Fault Unit) :
    Drops reason l
      ((if l.connected ∧ reason ≠ .reset then
          [⟨.closeCloud, ()⟩]
        else
          []) ++
        [l.shows .disconnecting, ⟨.disconnect, answer⟩,
          l.shows .disconnected, l.tells .disconnected])
      { l.disarm with
        connecting := false
        connected := false
        status := .disconnected }

/- The radio is powered on, unless it is. -/
inductive PowersUp :
    Link → List Exchange → Except Fault Unit → Link → Prop where
| already
    {l : Link}
    (hOn : l.powered) :
    PowersUp l [] (.ok ()) l
| refused
    {l : Link}
    (hOff : ¬ l.powered)
    (fault : Fault) :
    PowersUp l [⟨.powerOn, .error fault⟩] (.error fault) l
| done
    {l : Link}
    (hOff : ¬ l.powered) :
    PowersUp l [⟨.powerOn, .ok ()⟩, l.tells .poweredOn] (.ok ())
      { l with powered := true, initialized := true }

/- The link with its watchdog armed. -/
def armed
    (now : Instant)
    (l : Link) : Link :=
  { l with
    watchdog := l.watchdog.arm now l.policy.connectWatchdog }

/-
  An attempt is made to attach. It ends at once without a known
  network, without power, or while the link is held down; else
  it is begun, unless the radio refuses.
-/
inductive Attempts
    (l : Link)
    (now : Instant) :
    List Exchange → Link → Prop where
| unknown
    {talk : List Exchange}
    {powered : Except Fault Unit}
    {l' : Link}
    (hPower : PowersUp (l.armed now) talk powered l') :
    Attempts l now (talk ++ [⟨.hasCredentials, false⟩])
      l'.disarm.listenForCredentials
| unpowered
    {talk : List Exchange}
    {fault : Fault}
    {l' : Link}
    (hPower : PowersUp (l.armed now) talk (.error fault) l') :
    Attempts l now (talk ++ [⟨.hasCredentials, true⟩]) l'.disarm
| held
    {talk : List Exchange}
    {l' : Link}
    (hPower : PowersUp (l.armed now) talk (.ok ()) l')
    (hHeld : l'.updateMode) :
    Attempts l now (talk ++ [⟨.hasCredentials, true⟩]) l'.disarm
| refused
    {talk : List Exchange}
    {l' : Link}
    (hPower : PowersUp (l.armed now) talk (.ok ()) l')
    (hFree : ¬ l'.updateMode)
    (fault : Fault) :
    Attempts l now
      (talk ++
        [⟨.hasCredentials, true⟩, l'.shows .connecting,
          l'.tells .connecting, ⟨.beginConnect, .error fault⟩,
          l'.shows .disconnected])
      { l'.disarm with
        connecting := false
        status := .disconnected }
| begun
    {talk : List Exchange}
    {l' : Link}
    (hPower : PowersUp (l.armed now) talk (.ok ()) l')
    (hFree : ¬ l'.updateMode) :
    Attempts l now
      (talk ++
        [⟨.hasCredentials, true⟩, l'.shows .connecting,
          l'.tells .connecting, ⟨.beginConnect, .ok ()⟩])
      { l' with connecting := true, status := .connecting }

------------------------------------------------------------
-- Unfolding the Parts
------------------------------------------------------------

variable
  {α : Type}
  {l l' : Link}
  {talk : List Exchange}
  {result : Except Fault Unit}

theorem unfolds_setStatus
    {status : LinkStatus}
    {next : Link → Talk α}
    {a : α} :
    (l.setStatus status >>= next).Unfolds talk (some a) ↔
      ∃ rest,
        talk = l.shows status :: rest ∧
          (next { l with status := status }).Unfolds rest
            (some a) := by
  simp only [setStatus, Talk.showLink, Dialogue.ask_bind,
    Dialogue.done_bind, Dialogue.pure_eq_done,
    Dialogue.unfolds_ask]
  constructor
  · rintro ⟨_, hRest⟩
    exact hRest
  · exact fun hRest => ⟨(), hRest⟩

theorem unfolds_announce
    {what : Announcement}
    {next : Unit → Talk α}
    {a : α} :
    (l.announce what >>= next).Unfolds talk (some a) ↔
      ∃ rest,
        talk = l.tells what :: rest ∧
          (next ()).Unfolds rest (some a) := by
  simp only [announce, Talk.announce, Dialogue.ask_bind,
    Dialogue.done_bind, Dialogue.unfolds_ask]
  constructor
  · rintro ⟨_, hRest⟩
    exact hRest
  · exact fun hRest => ⟨(), hRest⟩

/- Dropping the link does what `Drops` says. -/
theorem drops_of_unfolds
    {reason : DropReason}
    (hDrop :
      (l.disconnect reason).Unfolds talk (some (result, l'))) :
    Drops reason l talk l' := by
  unfold disconnect at hDrop
  split at hDrop
  · next hNone =>
      rw [Dialogue.pure_eq_done, Dialogue.unfolds_done] at hDrop
      rcases hDrop with ⟨rfl, hSame⟩
      cases hSame
      exact .nothing hNone
  · next hSome =>
      have hLink : l.connecting ∨ l.connected :=
        Decidable.or_iff_not_not_and_not.mpr hSome
      split at hDrop
      · next hCloud =>
          simp only [Talk.closeCloud, Dialogue.ask_bind,
            Dialogue.done_bind, Dialogue.unfolds_ask,
            unfolds_setStatus, Talk.disconnect, unfolds_announce,
            Dialogue.pure_eq_done, Dialogue.unfolds_done,
            Prod.mk.injEq] at hDrop
          rcases hDrop with
            ⟨_, _, rfl, _, rfl, answer, _, rfl, _, rfl, _, rfl,
              rfl, rfl, rfl⟩
          have hDrops : Drops reason l _ _ := .drop hLink result
          rw [if_pos hCloud] at hDrops
          exact hDrops
      · next hCloud =>
          simp only [Dialogue.ask_bind,
            Dialogue.done_bind, Dialogue.unfolds_ask,
            unfolds_setStatus, Talk.disconnect, unfolds_announce,
            Dialogue.pure_eq_done, Dialogue.unfolds_done,
            Prod.mk.injEq] at hDrop
          rcases hDrop with
            ⟨_, rfl, answer, _, rfl, _, rfl, _, rfl,
              rfl, rfl, rfl⟩
          have hDrops : Drops reason l _ _ := .drop hLink result
          rw [if_neg hCloud] at hDrops
          exact hDrops

theorem Drops.down
    {reason : DropReason}
    (hDrop : Drops reason l talk l') :
    ¬ l'.connecting ∧ ¬ l'.connected := by
  cases hDrop with
  | nothing hNone =>
      exact hNone
  | drop hSome answer =>
      simp

theorem Drops.frame
    {reason : DropReason}
    (hDrop : Drops reason l talk l') :
    l'.technology = l.technology ∧ l'.powered = l.powered := by
  cases hDrop <;> exact ⟨rfl, rfl⟩

theorem powersUp_of_unfolds
    (hOn : l.on.Unfolds talk (some (result, l'))) :
    PowersUp l talk result l' := by
  unfold on at hOn
  split at hOn
  · next hPowered =>
      rw [Dialogue.pure_eq_done, Dialogue.unfolds_done] at hOn
      rcases hOn with ⟨rfl, hSame⟩
      cases hSame
      exact .already hPowered
  · next hPowered =>
      simp only [Talk.powerOn, Dialogue.ask_bind,
        Dialogue.done_bind, Dialogue.unfolds_ask] at hOn
      rcases hOn with ⟨answer, rest, rfl, hOn⟩
      cases answer with
      | error fault =>
          rcases (Dialogue.unfolds_done _ _ _).mp hOn with
            ⟨rfl, hSame⟩
          cases hSame
          exact .refused hPowered fault
      | ok done =>
          dsimp only at hOn
          rw [unfolds_announce] at hOn
          rcases hOn with ⟨rest, rfl, hOn⟩
          rcases (Dialogue.unfolds_done _ _ _).mp hOn with
            ⟨rfl, hSame⟩
          cases hSame
          exact .done hPowered

theorem unfolds_attach
    (hAttach : l.attach.Unfolds talk (some (result, l'))) :
    (∃ fault,
      talk =
          [l.shows .connecting, l.tells .connecting,
            ⟨.beginConnect, .error fault⟩,
            l.shows .disconnected] ∧
        l' =
          { l.disarm with
            connecting := false
            status := .disconnected }) ∨
      (talk =
          [l.shows .connecting, l.tells .connecting,
            ⟨.beginConnect, .ok ()⟩] ∧
        l' =
          { l with
            connecting := true
            status := .connecting }) := by
  unfold attach at hAttach
  simp only [unfolds_setStatus, unfolds_announce,
    Talk.beginConnect, Dialogue.ask_bind, Dialogue.done_bind,
    Dialogue.unfolds_ask] at hAttach
  rcases hAttach with ⟨_, rfl, _, rfl, answer, _, rfl, hAttach⟩
  cases answer with
  | error fault =>
      simp only [unfolds_setStatus, Dialogue.pure_eq_done,
        Dialogue.unfolds_done, Prod.mk.injEq] at hAttach
      rcases hAttach with ⟨_, rfl, rfl, _, rfl⟩
      exact .inl ⟨fault, rfl, rfl⟩
  | ok begun =>
      simp only [Dialogue.pure_eq_done, Dialogue.unfolds_done,
        Prod.mk.injEq] at hAttach
      rcases hAttach with ⟨rfl, _, rfl⟩
      exact .inr ⟨rfl, rfl⟩

theorem attempts_of_unfolds
    (hAttempt : l.attempt.Unfolds talk (some (result, l'))) :
    ∃ now rest,
      talk = ⟨.now, now⟩ :: ⟨.count .connectAttempt, ()⟩ :: rest ∧
        Attempts l now rest l' := by
  unfold attempt at hAttempt
  simp only [Talk.now, Talk.count, Dialogue.ask_bind,
    Dialogue.done_bind, Dialogue.unfolds_ask] at hAttempt
  rcases hAttempt with ⟨now, _, rfl, ⟨⟩, rest, rfl, hAttempt⟩
  refine ⟨now, rest, rfl, ?_⟩
  rw [Dialogue.unfolds_bind] at hAttempt
  rcases hAttempt with
    ⟨⟨powered, l₁⟩, power, more, rfl, hOn, hAttempt⟩
  have hPower : PowersUp (l.armed now) power powered l₁ :=
    powersUp_of_unfolds hOn
  simp only [Talk.hasCredentials, Dialogue.ask_bind,
    Dialogue.done_bind, Dialogue.unfolds_ask] at hAttempt
  rcases hAttempt with ⟨known, rest, rfl, hAttempt⟩
  cases known with
  | false =>
      rcases (Dialogue.unfolds_done _ _ _).mp hAttempt with
        ⟨rfl, hSame⟩
      cases hSame
      exact .unknown hPower
  | true =>
      cases powered with
      | error fault =>
          rcases (Dialogue.unfolds_done _ _ _).mp hAttempt with
            ⟨rfl, hSame⟩
          cases hSame
          exact .unpowered hPower
      | ok done =>
          change (if l₁.updateMode then _ else l₁.attach).Unfolds
            rest (some (result, l')) at hAttempt
          split at hAttempt
          · next hHeld =>
              rcases (Dialogue.unfolds_done _ _ _).mp hAttempt with
                ⟨rfl, hSame⟩
              cases hSame
              exact .held hPower hHeld
          · next hFree =>
              rcases unfolds_attach hAttempt with
                ⟨fault, rfl, rfl⟩ | ⟨rfl, rfl⟩
              · exact .refused hPower hFree fault
              · exact .begun hPower hFree

------------------------------------------------------------
-- Moves
------------------------------------------------------------

/-
  One move of a supervisor: the link before it, the questions
  with their answers and the link after it.
-/
inductive Move : Link → List Exchange → Link → Prop where
| request
    {l : Link}
    {listening : Listening}
    (hRequest :
      listening = l.listening.requestEnter ∨
        listening = l.listening.requestExit) :
    Move l [] { l with listening := listening }
| suppress
    {l : Link}
    {enabled : Bool}
    (hNew : l.updateMode ≠ enabled) :
    Move l [⟨.suppressData enabled, ()⟩]
      { l with updateMode := enabled }
| powerUp
    {l l' : Link}
    {talk : List Exchange}
    {result : Except Fault Unit}
    (hPower : PowersUp l talk result l') :
    Move l talk l'
| powerDown
    {l : Link}
    (hOn : l.powered)
    (hDown : ¬ l.connecting ∧ ¬ l.connected) :
    Move l [⟨.powerOff, .ok ()⟩, l.tells .poweredOff]
      { l with powered := false, initialized := false }
| powerStays
    {l : Link}
    (hOn : l.powered)
    (hDown : ¬ l.connecting ∧ ¬ l.connected)
    (fault : Fault) :
    Move l [⟨.powerOff, .error fault⟩] l
| drop
    {l l' : Link}
    {talk : List Exchange}
    {reason : DropReason}
    (hDrop : Drops reason l talk l') :
    Move l talk l'
| tick
    {l : Link}
    {now : Instant}
    (hQuiet : (l.listening.update now).1 = none) :
    Move l [⟨.now, now⟩]
      { l with listening := (l.listening.update now).2 }
| tickStopped
    {l : Link}
    {now : Instant}
    (hStopped : (l.listening.update now).1 = some .stopped) :
    Move l [⟨.now, now⟩, l.tells .listeningStopped]
      { l with listening := (l.listening.update now).2 }
| tickStarted
    {l l' : Link}
    {talk : List Exchange}
    {now : Instant}
    (hStarted : (l.listening.update now).1 = some .started)
    (hDrop :
      Drops .listening
        { l with listening := (l.listening.update now).2 }
        talk l') :
    Move l (⟨.now, now⟩ :: (talk ++ [l.tells .listeningStarted]))
      l'
| look
    {l : Link}
    (ready : Bool) :
    Move l [⟨.isReady, ready⟩] l
| arrive
    {l : Link}
    (hNew : ¬ l.connected) :
    Move l
      [⟨.isReady, true⟩, l.shows .connected, l.tells .connected]
      { l.disarm with
        connecting := false
        connected := true
        status := .connected }
| arriveAgain
    {l : Link}
    (hOld : l.connected) :
    Move l [⟨.isReady, true⟩] { l.disarm with connecting := false }
| lose
    {l : Link}
    (hIdle : ¬ l.connecting)
    (hOld : l.connected) :
    Move l
      [⟨.isReady, false⟩, l.shows .disconnected,
        l.tells .disconnected]
      { l with connected := false, status := .disconnected }
| reset
    {l l' : Link}
    {talk : List Exchange}
    (hUnderWay : l.connecting)
    (hDrop : Drops .reset l talk l') :
    Move l
      (⟨.isReady, false⟩ :: ⟨.count .watchdogReset, ()⟩ :: talk)
      l'
| attempt
    {l l' : Link}
    {talk : List Exchange}
    {now : Instant}
    (hFree : ¬ (l.connecting ∧ l.initialized))
    (hAlone : ¬ l.listening.isEngaged)
    (hAttempt : Attempts l now talk l') :
    Move l
      (⟨.isReady, false⟩ :: ⟨.now, now⟩ ::
        ⟨.count .connectAttempt, ()⟩ :: talk)
      l'

/- Moves, one after the other. -/
inductive Moves : Link → List Exchange → Link → Prop where
| nil
    (l : Link) :
    Moves l [] l
| cons
    {l l' l'' : Link}
    {talk more : List Exchange}
    (hMove : Move l talk l')
    (hMoves : Moves l' more l'') :
    Moves l (talk ++ more) l''

theorem Move.moves
    (hMove : Move l talk l') :
    Moves l talk l' := by
  have hMoves := Moves.cons hMove (.nil l')
  rwa [List.append_nil] at hMoves

theorem Moves.append
    {l'' : Link}
    {more : List Exchange}
    (hFirst : Moves l talk l')
    (hSecond : Moves l' more l'') :
    Moves l (talk ++ more) l'' := by
  induction hFirst with
  | nil l =>
      exact hSecond
  | cons hMove hMoves ih =>
      rw [List.append_assoc]
      exact .cons hMove (ih hSecond)

------------------------------------------------------------
-- Operations as Moves
------------------------------------------------------------

theorem moves_off
    (hOff : l.off.Unfolds talk (some (result, l'))) :
    Moves l talk l' := by
  unfold off at hOff
  split at hOff
  · next hPowered =>
      rcases (Dialogue.unfolds_done _ _ _).mp hOff with
        ⟨rfl, hSame⟩
      cases hSame
      exact .nil l
  · next hPowered =>
      rw [Dialogue.unfolds_bind] at hOff
      rcases hOff with
        ⟨⟨dropped, l₁⟩, talk, more, rfl, hDrop, hOff⟩
      have hDrops := drops_of_unfolds hDrop
      have hMoves : Moves l talk l₁ := (Move.drop hDrops).moves
      have hOn : l₁.powered := by
        rw [hDrops.frame.2]
        simpa using hPowered
      apply hMoves.append
      simp only [Talk.powerOff, Dialogue.ask_bind,
        Dialogue.done_bind, Dialogue.unfolds_ask] at hOff
      rcases hOff with ⟨answer, _, rfl, hOff⟩
      cases answer with
      | error fault =>
          rcases (Dialogue.unfolds_done _ _ _).mp hOff with
            ⟨rfl, hSame⟩
          cases hSame
          exact (Move.powerStays hOn hDrops.down fault).moves
      | ok done =>
          simp only [unfolds_announce, Dialogue.pure_eq_done,
            Dialogue.unfolds_done, Prod.mk.injEq] at hOff
          rcases hOff with ⟨_, rfl, rfl, _, rfl⟩
          exact (Move.powerDown hOn hDrops.down).moves

/- A radio that is ready completes the link. -/
theorem move_of_markConnected
    (hMark : l.markConnected.Unfolds talk (some l')) :
    Move l (⟨.isReady, true⟩ :: talk) l' := by
  unfold markConnected at hMark
  dsimp only at hMark
  split at hMark
  · next hOld =>
      rcases (Dialogue.unfolds_done _ _ _).mp hMark with
        ⟨rfl, rfl⟩
      exact .arriveAgain hOld
  · next hNew =>
      simp only [unfolds_setStatus, unfolds_announce,
        Dialogue.pure_eq_done, Dialogue.unfolds_done] at hMark
      rcases hMark with ⟨_, rfl, _, rfl, rfl, rfl⟩
      exact .arrive hNew

theorem moves_connect
    (hConnect : l.connect.Unfolds talk (some (result, l'))) :
    Moves l talk l' := by
  unfold connect at hConnect
  simp only [Talk.isReady, Dialogue.ask_bind,
    Dialogue.done_bind, Dialogue.unfolds_ask] at hConnect
  rcases hConnect with ⟨ready, rest, rfl, hConnect⟩
  cases ready with
  | true =>
      rw [if_pos rfl, Dialogue.unfolds_bind] at hConnect
      rcases hConnect with ⟨l₁, talk, _, rfl, hMark, hDone⟩
      rcases (Dialogue.unfolds_done _ _ _).mp hDone with
        ⟨rfl, hSame⟩
      cases hSame
      rw [List.append_nil]
      exact (move_of_markConnected hMark).moves
  | false =>
      rw [if_neg Bool.false_ne_true] at hConnect
      split at hConnect
      · next hBusy =>
          rcases (Dialogue.unfolds_done _ _ _).mp hConnect with
            ⟨rfl, hSame⟩
          cases hSame
          exact (Move.look false).moves
      · next hFree =>
          rw [not_or] at hFree
          rcases attempts_of_unfolds hConnect with
            ⟨now, rest, rfl, hAttempt⟩
          exact (Move.attempt hFree.1 hFree.2 hAttempt).moves

/- Acting on the requests to listen is one move. -/
theorem move_of_updateListening
    {now : Instant}
    (hUpdate :
      (l.updateListening now).Unfolds talk (some l')) :
    Move l (⟨.now, now⟩ :: talk) l' := by
  unfold updateListening at hUpdate
  dsimp only at hUpdate
  split at hUpdate
  · next hStarted =>
      rw [Dialogue.unfolds_bind] at hUpdate
      rcases hUpdate with
        ⟨⟨dropped, l₁⟩, talk, _, rfl, hDrop, hUpdate⟩
      simp only [unfolds_announce, Dialogue.pure_eq_done,
        Dialogue.unfolds_done] at hUpdate
      rcases hUpdate with ⟨_, rfl, rfl, rfl⟩
      have hDrops := drops_of_unfolds hDrop
      have hMove := Move.tickStarted hStarted hDrops
      unfold tells at hMove ⊢
      rw [hDrops.frame.1]
      exact hMove
  · next hStopped =>
      simp only [unfolds_announce, Dialogue.pure_eq_done,
        Dialogue.unfolds_done] at hUpdate
      rcases hUpdate with ⟨_, rfl, rfl, rfl⟩
      exact .tickStopped hStopped
  · next hQuiet =>
      rcases (Dialogue.unfolds_done _ _ _).mp hUpdate with
        ⟨rfl, rfl⟩
      exact .tick hQuiet

theorem moves_superviseAttempt
    {now : Instant}
    (hUnderWay : l.connecting)
    (hSupervise :
      (l.superviseAttempt now).Unfolds talk (some l')) :
    Moves l talk l' := by
  unfold superviseAttempt at hSupervise
  simp only [Talk.isReady, Dialogue.ask_bind,
    Dialogue.done_bind, Dialogue.unfolds_ask] at hSupervise
  rcases hSupervise with ⟨ready, rest, rfl, hSupervise⟩
  cases ready with
  | true =>
      rw [if_pos rfl] at hSupervise
      exact (move_of_markConnected hSupervise).moves
  | false =>
      rw [if_neg Bool.false_ne_true] at hSupervise
      split at hSupervise
      · next hExpired =>
          simp only [Talk.count, Dialogue.ask_bind,
            Dialogue.done_bind, Dialogue.unfolds_ask,
            Dialogue.unfolds_bind] at hSupervise
          rcases hSupervise with
            ⟨_, _, rfl, ⟨dropped, l₁⟩, talk, _, rfl, hDrop,
              ⟨connected, l₂⟩, more, _, rfl, hConnect, hDone⟩
          rcases (Dialogue.unfolds_done _ _ _).mp hDone with
            ⟨rfl, rfl⟩
          rw [List.append_nil]
          exact
            .cons (.reset hUnderWay (drops_of_unfolds hDrop))
              (moves_connect hConnect)
      · next hLasting =>
          rcases (Dialogue.unfolds_done _ _ _).mp hSupervise with
            ⟨rfl, rfl⟩
          exact (Move.look false).moves

theorem moves_superviseLink
    (hIdle : ¬ l.connecting)
    (hOld : l.connected)
    (hSupervise : l.superviseLink.Unfolds talk (some l')) :
    Moves l talk l' := by
  unfold superviseLink at hSupervise
  simp only [Talk.isReady, Dialogue.ask_bind,
    Dialogue.done_bind, Dialogue.unfolds_ask] at hSupervise
  rcases hSupervise with ⟨ready, rest, rfl, hSupervise⟩
  cases ready with
  | true =>
      rw [if_pos rfl] at hSupervise
      rcases (Dialogue.unfolds_done _ _ _).mp hSupervise with
        ⟨rfl, rfl⟩
      exact (Move.look true).moves
  | false =>
      rw [if_neg Bool.false_ne_true] at hSupervise
      simp only [unfolds_setStatus, unfolds_announce] at hSupervise
      rcases hSupervise with ⟨_, rfl, _, rfl, hSupervise⟩
      rw [Dialogue.unfolds_bind] at hSupervise
      rcases hSupervise with
        ⟨⟨connected, l₁⟩, talk, _, rfl, hConnect, hDone⟩
      rcases (Dialogue.unfolds_done _ _ _).mp hDone with
        ⟨rfl, rfl⟩
      rw [List.append_nil]
      exact .cons (.lose hIdle hOld) (moves_connect hConnect)

theorem moves_process
    (hProcess : l.process.Unfolds talk (some l')) :
    Moves l talk l' := by
  unfold process at hProcess
  simp only [Talk.now, Dialogue.ask_bind, Dialogue.done_bind,
    Dialogue.unfolds_ask, Dialogue.unfolds_bind] at hProcess
  rcases hProcess with
    ⟨now, _, rfl, l₁, talk, more, rfl, hUpdate, hSupervise⟩
  apply Moves.cons (move_of_updateListening hUpdate)
  split at hSupervise
  · next hUnderWay =>
      exact moves_superviseAttempt hUnderWay hSupervise
  · next hIdle =>
      split at hSupervise
      · next hOld =>
          exact moves_superviseLink hIdle hOld hSupervise
      · next hNone =>
          rcases (Dialogue.unfolds_done _ _ _).mp hSupervise with
            ⟨rfl, rfl⟩
          exact .nil _

end Link

end Fota
