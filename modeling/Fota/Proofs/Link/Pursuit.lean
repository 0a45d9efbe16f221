import Fota.Proofs.Link.Guards
import Fota.Proofs.Link.TruthfulStatus

/-
  This file shows how long a supervisor looks after a link that
  it was asked for. Rounds of supervision keep an attempt under
  way or the link up, and try anew when the link is lost or the
  time of an attempt is up, until the radio refuses to attach.
  The refusal is told to nobody, and no later round asks more
  than the time.

  Key definitions include:
    * `Link.Tended`
    * `Link.Refused`
    * `Link.Free`
    * `Link.Pursued`
    * `Link.Rounds`

  The main statements are `Link.tended_until_refused` and
  `Link.forsaken_after_refused_retry`.
-/

namespace Fota

namespace Link

------------------------------------------------------------
-- Links Looked After
------------------------------------------------------------

/- A round of supervision has something to look after. -/
def Tended
    (l : Link) : Prop :=
  l.connecting ∨ l.connected

/- The radio has refused to attach. -/
def Refused
    (talk : List Exchange) : Prop :=
  ∃ fault, ⟨.beginConnect, .error fault⟩ ∈ talk

/- The radio is asked to attach, unless it is found ready. -/
def Retries
    (talk : List Exchange) : Prop :=
  ⟨.isReady, true⟩ ∈ talk ∨
    ∃ answer, ⟨.beginConnect, answer⟩ ∈ talk

/- The radio was asked for a network while it knew none. -/
def Unknown
    (talk : List Exchange) : Prop :=
  ⟨.hasCredentials, false⟩ ∈ talk

/- Nothing but the radio stands in the way of an attempt. -/
structure Free
    (l : Link) : Prop where
  powered : l.powered
  loose : ¬ l.updateMode
  alone : ¬ l.listening.isEngaged
  guarded : l.connecting → l.watchdog.isArmed

variable
  {l l' : Link}
  {talk log : List Exchange}
  {result : Except Fault Unit}

@[simp]
theorem not_refused_nil : ¬ Refused [] := by
  simp [Refused]

theorem refused_append
    {more : List Exchange} :
    Refused (talk ++ more) ↔ Refused talk ∨ Refused more := by
  simp [Refused, exists_or]

/- Only the answer to an attempt can refuse it. -/
@[simp]
theorem refused_cons
    {exchange : Exchange}
    (hOther : exchange.question ≠ .beginConnect) :
    Refused (exchange :: talk) ↔ Refused talk := by
  have hNot :
      ∀ fault, (⟨.beginConnect, .error fault⟩ : Exchange) ≠
        exchange := by
    rintro fault rfl
    exact hOther rfl
  simp [Refused, hNot]

theorem Retries.cons
    {exchange : Exchange}
    (hRetries : Retries talk) :
    Retries (exchange :: talk) := by
  rcases hRetries with hReady | ⟨answer, hBegun⟩
  · exact .inl (List.mem_cons_of_mem _ hReady)
  · exact .inr ⟨answer, List.mem_cons_of_mem _ hBegun⟩

theorem Retries.append
    {more : List Exchange}
    (hRetries : Retries more) :
    Retries (talk ++ more) := by
  rcases hRetries with hReady | ⟨answer, hBegun⟩
  · exact .inl (List.mem_append_right _ hReady)
  · exact .inr ⟨answer, List.mem_append_right _ hBegun⟩

theorem Unknown.cons
    {exchange : Exchange}
    (hUnknown : Unknown talk) :
    Unknown (exchange :: talk) :=
  List.mem_cons_of_mem _ hUnknown

theorem Unknown.append
    {more : List Exchange}
    (hUnknown : Unknown more) :
    Unknown (talk ++ more) :=
  List.mem_append_right _ hUnknown

------------------------------------------------------------
-- Parts of a Round
------------------------------------------------------------

/- Only some fields matter to whether a link is free. -/
theorem Free.congr
    (hFree : l.Free)
    (hPowered : l'.powered = l.powered)
    (hMode : l'.updateMode = l.updateMode)
    (hListening : l'.listening = l.listening)
    (hGuarded : l'.connecting → l'.watchdog.isArmed) :
    l'.Free where
  powered := by rw [hPowered]; exact hFree.powered
  loose := by rw [hMode]; exact hFree.loose
  alone := by rw [hListening]; exact hFree.alone
  guarded := hGuarded

theorem Free.congr_idle
    (hFree : l.Free)
    (hPowered : l'.powered = l.powered)
    (hMode : l'.updateMode = l.updateMode)
    (hListening : l'.listening = l.listening)
    (hIdle : ¬ l'.connecting) :
    l'.Free :=
  hFree.congr hPowered hMode hListening fun hUnderWay =>
    absurd hUnderWay hIdle

theorem PowersUp.of_powered
    (hPower : PowersUp l talk result l')
    (hOn : l.powered) :
    talk = [] ∧ result = .ok () ∧ l' = l := by
  cases hPower with
  | already _ =>
      exact ⟨rfl, rfl, rfl⟩
  | refused hOff fault =>
      exact absurd hOn hOff
  | done hOff =>
      exact absurd hOn hOff

/- Powering the radio up does not ask it to attach, -/
theorem PowersUp.not_begun
    (hPower : PowersUp l talk result l')
    (answer : Except Fault Unit) :
    ⟨.beginConnect, answer⟩ ∉ talk := by
  cases hPower <;> simp [tells]

/- and neither does finding it ready. -/
theorem not_begun_of_markConnected
    (hMark : l.markConnected.Unfolds talk (some l'))
    (answer : Except Fault Unit) :
    ⟨.beginConnect, answer⟩ ∉ talk := by
  unfold markConnected at hMark
  dsimp only at hMark
  split at hMark
  · rcases (Dialogue.unfolds_done _ _ _).mp hMark with ⟨rfl, _⟩
    exact List.not_mem_nil
  · simp only [unfolds_setStatus, unfolds_announce,
      Dialogue.pure_eq_done, Dialogue.unfolds_done] at hMark
    rcases hMark with ⟨_, rfl, _, rfl, rfl, _⟩
    simp [shows, tells]

theorem not_refused_of_markConnected
    (hMark : l.markConnected.Unfolds talk (some l')) :
    ¬ Refused talk := by
  rintro ⟨fault, hFault⟩
  exact not_begun_of_markConnected hMark _ hFault

/- A link that is found ready is up and stays free. -/
theorem Free.of_markConnected
    (hFree : l.Free)
    (hMark : l.markConnected.Unfolds talk (some l')) :
    l'.Free ∧ l'.connected := by
  unfold markConnected at hMark
  dsimp only at hMark
  split at hMark
  · next hOld =>
      rcases (Dialogue.unfolds_done _ _ _).mp hMark with
        ⟨_, rfl⟩
      exact
        ⟨hFree.congr_idle rfl rfl rfl Bool.false_ne_true, hOld⟩
  · simp only [unfolds_setStatus, unfolds_announce,
      Dialogue.pure_eq_done, Dialogue.unfolds_done] at hMark
    rcases hMark with ⟨_, _, _, _, _, rfl⟩
    exact ⟨hFree.congr_idle rfl rfl rfl Bool.false_ne_true, rfl⟩

/- An attempt of a free link is refused or begun. -/
theorem Free.of_attempts
    {now : Instant}
    (hFree : l.Free)
    (hAttempt : Attempts l now talk l')
    (hKnown : ¬ Unknown talk) :
    l'.Free ∧
      (l'.Tended ↔ ¬ Refused talk ∨ l.connected) ∧
        Retries talk := by
  cases hAttempt with
  | unknown hPower =>
      exact absurd (by simp [Unknown]) hKnown
  | unpowered hPower =>
      -- The radio is on, so it is not asked to power up.
      cases (hPower.of_powered hFree.powered).2.1
  | held hPower hHeld =>
      rcases hPower.of_powered hFree.powered with ⟨_, _, rfl⟩
      exact absurd hHeld hFree.loose
  | refused hPower hHeld fault =>
      rcases hPower.of_powered hFree.powered with ⟨rfl, _, rfl⟩
      refine
        ⟨hFree.congr_idle rfl rfl rfl Bool.false_ne_true, ?_,
          .inr ⟨.error fault, by simp⟩⟩
      rw [or_iff_right (not_not_intro ⟨fault, by simp⟩)]
      simp [Tended, disarm, armed]
  | begun hPower hHeld =>
      rcases hPower.of_powered hFree.powered with ⟨rfl, _, rfl⟩
      refine
        ⟨hFree.congr rfl rfl rfl fun _ => rfl, ?_,
          .inr ⟨.ok (), by simp⟩⟩
      simp [Tended, Refused, shows, tells]

/-
  A request for the link looks at the radio. It completes the
  link, leaves it to what is under way, or makes an attempt.
-/
theorem unfolds_connect
    (hConnect : l.connect.Unfolds talk (some (result, l'))) :
    (∃ rest,
        talk = ⟨.isReady, true⟩ :: rest ∧
          l.markConnected.Unfolds rest (some l')) ∨
      (talk = [⟨.isReady, false⟩] ∧
        (l.connecting ∨ l.listening.isEngaged) ∧ l' = l) ∨
        ∃ now rest,
          talk =
              ⟨.isReady, false⟩ :: ⟨.now, now⟩ ::
                ⟨.count .connectAttempt, ()⟩ :: rest ∧
            ¬ l.listening.isEngaged ∧ Attempts l now rest l' := by
  unfold connect at hConnect
  simp only [Talk.isReady, Dialogue.ask_bind,
    Dialogue.done_bind, Dialogue.unfolds_ask] at hConnect
  rcases hConnect with ⟨ready, rest, rfl, hConnect⟩
  cases ready with
  | true =>
      rw [if_pos rfl, Dialogue.unfolds_bind] at hConnect
      rcases hConnect with ⟨l₁, talk, _, rfl, hMark, hDone⟩
      rcases (Dialogue.unfolds_done _ _ _).mp hDone with
        ⟨rfl, hSame⟩
      cases hSame
      rw [List.append_nil]
      exact .inl ⟨talk, rfl, hMark⟩
  | false =>
      rw [if_neg Bool.false_ne_true] at hConnect
      split at hConnect
      · next hBusy =>
          rcases (Dialogue.unfolds_done _ _ _).mp hConnect with
            ⟨rfl, hSame⟩
          cases hSame
          exact .inr (.inl ⟨rfl, hBusy.imp_left And.left, rfl⟩)
      · next hIdle =>
          rcases attempts_of_unfolds hConnect with
            ⟨now, rest, rfl, hAttempt⟩
          exact
            .inr (.inr
              ⟨now, rest, rfl, (not_or.mp hIdle).2, hAttempt⟩)

/-
  A free link that is asked for is looked after, unless the radio
  refuses; one that was up is looked after in any case.
-/
theorem Free.of_connect
    (hFree : l.Free)
    (hConnect : l.connect.Unfolds talk (some (result, l')))
    (hKnown : ¬ Unknown talk) :
    l'.Free ∧
      (l'.Tended ↔ ¬ Refused talk ∨ l.connected) ∧
        (¬ l.connecting → Retries talk) := by
  rcases unfolds_connect hConnect with
    ⟨rest, rfl, hMark⟩ | ⟨rfl, hBusy, rfl⟩ |
      ⟨now, rest, rfl, -, hAttempt⟩
  · rcases hFree.of_markConnected hMark with ⟨hFree, hUp⟩
    have hTaken := not_refused_of_markConnected hMark
    exact
      ⟨hFree, iff_of_true (.inr hUp) (.inl (by simpa)),
        fun _ => .inl (by simp)⟩
  · have hUnderWay := hBusy.resolve_right hFree.alone
    exact
      ⟨hFree, iff_of_true (.inl hUnderWay) (.inl (by simp)),
        fun hIdle => absurd hUnderWay hIdle⟩
  · rcases
        hFree.of_attempts hAttempt
          (fun hUnknown => hKnown hUnknown.cons.cons.cons)
      with ⟨hFree, hTended, hRetries⟩
    exact
      ⟨hFree, by simpa using hTended,
        fun _ => hRetries.cons.cons.cons⟩

/- Listening that nobody has asked for stays off. -/
theorem Free.of_updateListening
    {now : Instant}
    (hFree : l.Free)
    (hUpdate :
      (l.updateListening now).Unfolds talk (some l')) :
    talk = [] ∧
      ∃ listening, ¬ listening.isEngaged ∧
        l' = { l with listening := listening } := by
  have hAlone : ¬ l.listening.active ∧
      ¬ l.listening.enterRequested := by
    have hOff := hFree.alone
    rwa [Listening.isEngaged, Bool.or_eq_true, not_or] at hOff
  have hQuiet : l.listening.update now =
      (none, { l.listening with exitRequested := false }) := by
    simp [Listening.update, hAlone]
  have hStill :
      ¬ Listening.isEngaged
        { l.listening with exitRequested := false } :=
    hFree.alone
  unfold updateListening at hUpdate
  rw [hQuiet] at hUpdate
  rcases (Dialogue.unfolds_done _ _ _).mp hUpdate with
    ⟨rfl, rfl⟩
  exact ⟨rfl, _, hStill, rfl⟩

/- A link that is dropped stays free. -/
theorem Free.of_drops
    {reason : DropReason}
    (hFree : l.Free)
    (hDrop : Drops reason l talk l') :
    l'.Free ∧ ¬ Refused talk := by
  cases hDrop with
  | nothing hNone =>
      exact ⟨hFree, not_refused_nil⟩
  | drop hSome answer =>
      refine ⟨hFree.congr_idle rfl rfl rfl Bool.false_ne_true, ?_⟩
      rw [refused_append, not_or]
      split <;> simp [Refused, shows, tells]

------------------------------------------------------------
-- Rounds of Supervision
------------------------------------------------------------

/-
  What is asked in a round after its time, of a free link that is
  looked after: it still is unless the radio refuses. When the
  link is lost or the time of an attempt is up, it is tried anew.
-/
structure Tends
    (now : Instant)
    (l : Link)
    (rest : List Exchange)
    (l' : Link) : Prop where
  free : l'.Free
  tended : l'.Tended ↔ ¬ Refused rest
  retries :
    (l.connecting → l.watchdog.Expired now) → Retries rest

theorem Free.tends_of_superviseAttempt
    {now : Instant}
    (hFree : l.Free)
    (hUnderWay : l.connecting)
    (hSupervise :
      (l.superviseAttempt now).Unfolds talk (some l'))
    (hKnown : ¬ Unknown talk) :
    Tends now l talk l' := by
  unfold superviseAttempt at hSupervise
  simp only [Talk.isReady, Dialogue.ask_bind,
    Dialogue.done_bind, Dialogue.unfolds_ask] at hSupervise
  rcases hSupervise with ⟨ready, rest, rfl, hSupervise⟩
  cases ready with
  | true =>
      rw [if_pos rfl] at hSupervise
      rcases hFree.of_markConnected hSupervise with
        ⟨hFree, hUp⟩
      have hTaken := not_refused_of_markConnected hSupervise
      exact
        ⟨hFree, iff_of_true (.inr hUp) (by simpa),
          fun _ => .inl (by simp)⟩
  | false =>
      rw [if_neg Bool.false_ne_true] at hSupervise
      split at hSupervise
      · next hExpired =>
          simp only [Talk.count, Dialogue.ask_bind,
            Dialogue.done_bind, Dialogue.unfolds_ask,
            Dialogue.unfolds_bind] at hSupervise
          rcases hSupervise with
            ⟨_, _, rfl, ⟨dropped, l₁⟩, talk, _, rfl, hDrop,
              ⟨connected, l₂⟩, more, _, rfl, hConnect, hDone⟩
          rcases (Dialogue.unfolds_done _ _ _).mp hDone with
            ⟨rfl, rfl⟩
          rw [List.append_nil] at hKnown ⊢
          -- The reset takes the link down, so nothing but the
          -- new attempt can keep it looked after.
          have hDrops := drops_of_unfolds hDrop
          rcases hFree.of_drops hDrops with ⟨hFree, hTaken⟩
          rcases
              hFree.of_connect hConnect
                (fun hUnknown =>
                  hKnown hUnknown.append.cons.cons)
            with ⟨hFree, hTended, hRetries⟩
          refine ⟨hFree, ?_, fun _ => ?_⟩
          · simpa [refused_append, hTaken, hDrops.down.2]
              using hTended
          · exact (hRetries hDrops.down.1).append.cons.cons
      · next hLasting =>
          rcases (Dialogue.unfolds_done _ _ _).mp hSupervise with
            ⟨rfl, rfl⟩
          exact
            ⟨hFree, iff_of_true (.inl hUnderWay) (by simp),
              fun hExpired =>
                absurd (hExpired hUnderWay) hLasting⟩

theorem Free.tends_of_superviseLink
    {now : Instant}
    (hFree : l.Free)
    (hIdle : ¬ l.connecting)
    (hOld : l.connected)
    (hSupervise : l.superviseLink.Unfolds talk (some l'))
    (hKnown : ¬ Unknown talk) :
    Tends now l talk l' := by
  unfold superviseLink at hSupervise
  simp only [Talk.isReady, Dialogue.ask_bind,
    Dialogue.done_bind, Dialogue.unfolds_ask] at hSupervise
  rcases hSupervise with ⟨ready, rest, rfl, hSupervise⟩
  cases ready with
  | true =>
      rw [if_pos rfl] at hSupervise
      rcases (Dialogue.unfolds_done _ _ _).mp hSupervise with
        ⟨rfl, rfl⟩
      exact
        ⟨hFree, iff_of_true (.inr hOld) (by simp),
          fun _ => .inl (by simp)⟩
  | false =>
      rw [if_neg Bool.false_ne_true] at hSupervise
      simp only [unfolds_setStatus, unfolds_announce]
        at hSupervise
      rcases hSupervise with ⟨_, rfl, _, rfl, hSupervise⟩
      rw [Dialogue.unfolds_bind] at hSupervise
      rcases hSupervise with
        ⟨⟨connected, l₁⟩, talk, _, rfl, hConnect, hDone⟩
      rcases (Dialogue.unfolds_done _ _ _).mp hDone with
        ⟨rfl, rfl⟩
      rw [List.append_nil] at hKnown ⊢
      have hLost :
          Free
            { l with
              connected := false
              status := .disconnected } :=
        hFree.congr rfl rfl rfl hFree.guarded
      rcases
          hLost.of_connect hConnect
            (fun hUnknown => hKnown hUnknown.cons.cons.cons)
        with ⟨hFree, hTended, hRetries⟩
      refine ⟨hFree, ?_, fun _ => ?_⟩
      · simpa [shows, tells] using hTended
      · exact (hRetries hIdle).cons.cons.cons

/-
  A round reads the time. It then looks after a link that is
  looked after, and asks nothing about another.
-/
theorem Free.of_process
    (hFree : l.Free)
    (hProcess : l.process.Unfolds talk (some l'))
    (hKnown : ¬ Unknown talk) :
    ∃ now rest,
      talk = ⟨.now, now⟩ :: rest ∧
        l'.Free ∧
          (l.Tended → Tends now l rest l') ∧
            (¬ l.Tended → ¬ l'.Tended ∧ rest = []) := by
  unfold process at hProcess
  simp only [Talk.now, Dialogue.ask_bind, Dialogue.done_bind,
    Dialogue.unfolds_ask, Dialogue.unfolds_bind] at hProcess
  rcases hProcess with
    ⟨now, _, rfl, l₁, talk, rest, rfl, hUpdate, hSupervise⟩
  rcases hFree.of_updateListening hUpdate with
    ⟨rfl, listening, hAlone, rfl⟩
  rw [List.nil_append] at hKnown ⊢
  have hQuiet : Free { l with listening := listening } :=
    { hFree with alone := hAlone }
  have hKnown : ¬ Unknown rest := fun hUnknown =>
    hKnown hUnknown.cons
  refine ⟨now, rest, rfl, ?_⟩
  have hTends :
      Tends now { l with listening := listening } rest l' →
        Tends now l rest l' :=
    fun hTends => { hTends with }
  split at hSupervise
  · next hUnderWay =>
      have hTends := hTends
        (hQuiet.tends_of_superviseAttempt hUnderWay hSupervise
          hKnown)
      exact
        ⟨hTends.free, fun _ => hTends,
          fun hNone => absurd (.inl hUnderWay) hNone⟩
  · next hIdle =>
      split at hSupervise
      · next hOld =>
          have hTends := hTends
            (hQuiet.tends_of_superviseLink hIdle hOld
              hSupervise hKnown)
          exact
            ⟨hTends.free, fun _ => hTends,
              fun hNone => absurd (.inr hOld) hNone⟩
      · next hDown =>
          rcases (Dialogue.unfolds_done _ _ _).mp hSupervise with
            ⟨rfl, rfl⟩
          have hNone : ¬ l.Tended := not_or.mpr ⟨hIdle, hDown⟩
          exact
            ⟨hQuiet, fun hTended => absurd hTended hNone,
              fun _ => ⟨hNone, rfl⟩⟩

/- Rounds in turn, in which the radio knows a network. -/
inductive Rounds :
    Link → List (List Exchange) → Link → Prop where
| nil
    (l : Link) :
    Rounds l [] l
| cons
    {l l' l'' : Link}
    {round : List Exchange}
    {rounds : List (List Exchange)}
    (hProcess : l.process.Unfolds round (some l'))
    (hKnown : ¬ Unknown round)
    (hRounds : Rounds l' rounds l'') :
    Rounds l (round :: rounds) l''

/- Nobody looks after a link again in later rounds. -/
theorem Free.forsaken
    {rounds : List (List Exchange)}
    (hFree : l.Free)
    (hRounds : Rounds l rounds l')
    (hNone : ¬ l.Tended) :
    ¬ l'.Tended ∧
      ∀ round ∈ rounds, ∃ now, round = [⟨.now, now⟩] := by
  induction hRounds with
  | nil l =>
      exact ⟨hNone, List.forall_mem_nil _⟩
  | cons hProcess hKnown hRounds ih =>
      rcases hFree.of_process hProcess hKnown with
        ⟨now, rest, rfl, hFree, _, hForsaken⟩
      rcases hForsaken hNone with ⟨hNone, rfl⟩
      rcases ih hFree hNone with ⟨hNone, hClock⟩
      exact
        ⟨hNone, List.forall_mem_cons.mpr ⟨⟨now, rfl⟩, hClock⟩⟩

/- A link is looked after until some round is refused. -/
theorem Free.tended_iff
    {rounds : List (List Exchange)}
    (hFree : l.Free)
    (hRounds : Rounds l rounds l')
    (hTended : l.Tended) :
    l'.Tended ↔ ∀ round ∈ rounds, ¬ Refused round := by
  induction hRounds with
  | nil l =>
      exact iff_of_true hTended (List.forall_mem_nil _)
  | cons hProcess hKnown hRounds ih =>
      rcases hFree.of_process hProcess hKnown with
        ⟨now, rest, rfl, hFree, hTends, _⟩
      have hKept := (hTends hTended).tended
      rw [List.forall_mem_cons, refused_cons (by simp), ← hKept]
      constructor
      · -- A link that was given up would not be looked after
        -- at the end.
        intro hLast
        have hNext := Classical.byContradiction fun hNone =>
          (hFree.forsaken hRounds hNone).1 hLast
        exact ⟨hNext, (ih hFree hNext).mp hLast⟩
      · rintro ⟨hNext, hNever⟩
        exact (ih hFree hNext).mpr hNever

------------------------------------------------------------
-- Pursuits
------------------------------------------------------------

/-
  The operations that leave a link up: it is neither dropped,
  powered off nor held down, and nobody asks to listen.
-/
def Operation.Pursues : Operation → Prop
| .obey order => order = .on ∨ order = .connect
| .obeyFor _ order => order = .on ∨ order = .connect
| .listen => False
| .stopListening => True
| .process => True
| .setUpdateMode _ enabled => enabled = false

/-
  A supervised link for which an attempt is begun, and what
  becomes of it by such operations, with the log since then. The
  radio knows a network, and else answers as it likes.
-/
inductive Pursued
    (technology : Technology)
    (policy : Policy) :
    Link → List Exchange → Prop where
| start
    {l l' : Link}
    {log talk : List Exchange}
    {result : Except Fault Unit}
    (hLink : Supervised technology policy l log)
    (hConnect : l.connect.Unfolds talk (some (result, l')))
    (hBegun : ⟨.beginConnect, .ok ()⟩ ∈ talk) :
    Pursued technology policy l' talk
| operate
    {l l' : Link}
    {log talk : List Exchange}
    (hLink : Pursued technology policy l log)
    (operation : Operation)
    (hPursues : operation.Pursues)
    (hOperate :
      (carryOut operation l).Unfolds talk (some l'))
    (hKnown : ¬ Unknown talk) :
    Pursued technology policy l' (log ++ talk)

variable
  {technology : Technology}
  {policy : Policy}

/- A link for which an attempt is begun is free, -/
theorem Attempts.free
    {now : Instant}
    (hAttempt : Attempts l now talk l')
    (hAlone : ¬ l.listening.isEngaged)
    (hBegun : ⟨.beginConnect, .ok ()⟩ ∈ talk) :
    l'.Free ∧ l'.Tended := by
  cases hAttempt with
  | unknown hPower =>
      simp [hPower.not_begun] at hBegun
  | unpowered hPower =>
      simp [hPower.not_begun] at hBegun
  | held hPower hHeld =>
      simp [hPower.not_begun] at hBegun
  | refused hPower hLoose fault =>
      simp [hPower.not_begun, shows, tells] at hBegun
  | begun hPower hLoose =>
      have hOn := hPower.powered
      refine ⟨?_, .inl rfl⟩
      rcases hPower.link with rfl | rfl
      · exact ⟨hOn, hLoose, hAlone, fun _ => rfl⟩
      · exact ⟨hOn, hLoose, hAlone, fun _ => rfl⟩

theorem free_of_connect
    (hConnect : l.connect.Unfolds talk (some (result, l')))
    (hBegun : ⟨.beginConnect, .ok ()⟩ ∈ talk) :
    l'.Free ∧ l'.Tended := by
  rcases unfolds_connect hConnect with
    ⟨rest, rfl, hMark⟩ | ⟨rfl, -, -⟩ |
      ⟨now, rest, rfl, hAlone, hAttempt⟩
  · simp [not_begun_of_markConnected hMark] at hBegun
  · simp at hBegun
  · exact hAttempt.free hAlone (by simpa using hBegun)

/- and stays so under the orders of a pursuit -/
theorem Free.of_obey
    {order : Order}
    (hFree : l.Free)
    (hOrder : order = .on ∨ order = .connect)
    (hObey : (l.obey order).Unfolds talk (some (result, l')))
    (hKnown : ¬ Unknown talk) :
    l'.Free ∧ (l.Tended → ¬ Refused talk → l'.Tended) := by
  rcases hOrder with rfl | rfl
  · rcases
        (powersUp_of_unfolds hObey).of_powered hFree.powered
      with ⟨_, _, rfl⟩
    exact ⟨hFree, fun hTended _ => hTended⟩
  · rcases hFree.of_connect hObey hKnown with
      ⟨hFree, hTended, _⟩
    exact ⟨hFree, fun _ hTaken => hTended.mpr (.inl hTaken)⟩

/- and under all its operations. -/
theorem Free.of_carryOut
    {operation : Operation}
    (hFree : l.Free)
    (hPursues : operation.Pursues)
    (hCarry : (carryOut operation l).Unfolds talk (some l'))
    (hKnown : ¬ Unknown talk) :
    l'.Free ∧ (l.Tended → ¬ Refused talk → l'.Tended) := by
  cases operation with
  | obey order =>
      rw [carryOut, Dialogue.unfolds_bind] at hCarry
      rcases hCarry with
        ⟨⟨result, l₁⟩, talk, _, rfl, hObey, hDone⟩
      rcases (Dialogue.unfolds_done _ _ _).mp hDone with
        ⟨rfl, rfl⟩
      rw [List.append_nil] at hKnown ⊢
      exact hFree.of_obey hPursues hObey hKnown
  | obeyFor technology order =>
      rw [carryOut, Dialogue.unfolds_bind] at hCarry
      rcases hCarry with
        ⟨⟨result, l₁⟩, talk, _, rfl, hObey, hDone⟩
      rcases (Dialogue.unfolds_done _ _ _).mp hDone with
        ⟨rfl, rfl⟩
      rw [List.append_nil] at hKnown ⊢
      unfold obeyFor at hObey
      split at hObey
      · exact hFree.of_obey hPursues hObey hKnown
      · rcases (Dialogue.unfolds_done _ _ _).mp hObey with
          ⟨_, hSame⟩
        cases hSame
        exact ⟨hFree, fun hTended _ => hTended⟩
  | listen =>
      exact hPursues.elim
  | stopListening =>
      rcases (Dialogue.unfolds_done _ _ _).mp hCarry with
        ⟨_, rfl⟩
      have hOff : ¬ l.listening.requestExit.isEngaged := by
        have hAlone := hFree.alone
        simp only [Listening.isEngaged, Bool.or_eq_true,
          not_or] at hAlone
        simp [Listening.isEngaged, Listening.requestExit,
          hAlone.1]
      exact
        ⟨{ hFree with alone := hOff }, fun hTended _ => hTended⟩
  | process =>
      rcases hFree.of_process hCarry hKnown with
        ⟨now, rest, rfl, hFree, hTends, _⟩
      refine ⟨hFree, fun hTended hTaken => ?_⟩
      exact (hTends hTended).tended.mpr (by simpa using hTaken)
  | setUpdateMode technology enabled =>
      cases hPursues
      have hSame : carryOut (.setUpdateMode technology false) l =
          .done l := by
        simp [carryOut, setUpdateModeFor, setUpdateMode,
          hFree.loose]
      rw [hSame, Dialogue.unfolds_done] at hCarry
      rcases hCarry with ⟨_, rfl⟩
      exact ⟨hFree, fun hTended _ => hTended⟩

theorem Pursued.free
    (hPursued : Pursued technology policy l log) :
    l.Free := by
  induction hPursued with
  | start hLink hConnect hBegun =>
      exact (free_of_connect hConnect hBegun).1
  | operate hLink operation hPursues hOperate hKnown ih =>
      exact (ih.of_carryOut hPursues hOperate hKnown).1

theorem Pursued.tended
    (hPursued : Pursued technology policy l log)
    (hTaken : ¬ Refused log) :
    l.Tended := by
  induction hPursued with
  | start hLink hConnect hBegun =>
      exact (free_of_connect hConnect hBegun).2
  | operate hLink operation hPursues hOperate hKnown ih =>
      rw [refused_append, not_or] at hTaken
      exact
        (hLink.free.of_carryOut hPursues hOperate hKnown).2
          (ih hTaken.1) hTaken.2

/-
  A pursued link is looked after as long as the radio does not
  refuse to attach, and its attempts are under guard. A round of
  supervision tries it anew when the link is lost or the time of
  the attempt is up. In rounds in turn it stays looked after
  exactly until the radio refuses in one; once nobody looks after
  it, the rounds ask for nothing but the time.
-/
theorem tended_until_refused
    (hPursued : Pursued technology policy l log) :
    (¬ Refused log → l.Tended) ∧
      (l.connecting → l.watchdog.isArmed) ∧
        (∀ talk l', Rounds l [talk] l' → l.Tended →
          ∃ now rest,
            talk = ⟨.now, now⟩ :: rest ∧
              ((l.connecting → l.watchdog.Expired now) →
                Retries rest)) ∧
          ∀ rounds l', Rounds l rounds l' →
            (l.Tended →
              (l'.Tended ↔ ∀ round ∈ rounds, ¬ Refused round)) ∧
            (¬ l.Tended →
              ¬ l'.Tended ∧
                ∀ round ∈ rounds,
                  ∃ now, round = [⟨.now, now⟩]) := by
  have hFree := hPursued.free
  refine
    ⟨hPursued.tended, hFree.guarded, ?_, fun rounds l' hRounds =>
      ⟨hFree.tended_iff hRounds, hFree.forsaken hRounds⟩⟩
  intro talk l' hRound hTended
  cases hRound with
  | cons hProcess hKnown hRounds =>
      rcases hFree.of_process hProcess hKnown with
        ⟨now, rest, hTalk, _, hTends, _⟩
      exact ⟨now, rest, hTalk, (hTends hTended).retries⟩

/-
  A round of supervision that finds the link lost and asks the
  radio to attach again.
-/
def loss
    (answer : Except Fault Unit) : List Exchange :=
  [⟨.now, .ofNat 9⟩, ⟨.isReady, false⟩,
    ⟨.showLink .cellular .disconnected, ()⟩,
    ⟨.announce .cellular .disconnected, ()⟩,
    ⟨.isReady, false⟩, ⟨.now, .ofNat 9⟩,
    ⟨.count .connectAttempt, ()⟩, ⟨.hasCredentials, true⟩,
    ⟨.showLink .cellular .connecting, ()⟩,
    ⟨.announce .cellular .connecting, ()⟩,
    ⟨.beginConnect, answer⟩]

/- A link that was asked for and came up is pursued. -/
theorem pursued_attached :
    Pursued .cellular .standard attached
      (firstAttempt.drop 1 ++ arrival) := by
  have hFresh :
      Supervised .cellular .standard (fresh .cellular .standard)
        (firstAttempt.take 1) :=
    .start ((Dialogue.follow?_eq_some_iff _ _ _).mp rfl)
  have hConnect :
      (fresh .cellular .standard).connect.Unfolds
        (firstAttempt.drop 1) (some (.ok (), attempting)) :=
    (Dialogue.follow?_eq_some_iff _ _ _).mp rfl
  have hAttempting :
      Pursued .cellular .standard attempting
        (firstAttempt.drop 1) :=
    .start hFresh hConnect (by simp [firstAttempt])
  exact
    hAttempting.operate .process trivial
      ((Dialogue.follow?_eq_some_iff _ _ _).mp rfl)
      (by simp [Unknown, arrival])

/- The link once it is tried anew. -/
def retried : Link :=
  { attempting with watchdog := ⟨some (.ofNat 9), 300000⟩ }

/- It is looked after once it was lost and is tried anew. -/
theorem tended_after_loss :
    Pursued .cellular .standard retried
        (firstAttempt.drop 1 ++ arrival ++ loss (.ok ())) ∧
      retried.Tended := by
  have hPursued :
      Pursued .cellular .standard retried
        (firstAttempt.drop 1 ++ arrival ++ loss (.ok ())) :=
    pursued_attached.operate .process trivial
      ((Dialogue.follow?_eq_some_iff _ _ _).mp rfl)
      (by simp [Unknown, loss])
  refine ⟨hPursued, (tended_until_refused hPursued).1 ?_⟩
  simp [Refused, firstAttempt, arrival, loss]

/- The link once the radio has refused to be tried anew. -/
def forsaken : Link :=
  { attached with
    status := .disconnected
    connected := false }

/-
  The link is lost, and the radio refuses to attach when a round
  of supervision tries it anew. Nobody is told, the watchdog is
  disarmed, and whatever the radio does, no later round looks
  after the link.
-/
theorem forsaken_after_refused_retry :
    ∃ l log,
      Pursued .cellular .standard l log ∧
        ¬ l.connecting ∧
          ¬ l.connected ∧
            ∀ rounds l', Rounds l rounds l' →
              ¬ l'.Tended ∧
                ∀ round ∈ rounds,
                  ∃ now, round = [⟨.now, now⟩] := by
  have hPursued :
      Pursued .cellular .standard forsaken
        (firstAttempt.drop 1 ++ arrival ++
          (loss (.error .io) ++
            [⟨.showLink .cellular .disconnected, ()⟩])) :=
    pursued_attached.operate .process trivial
      ((Dialogue.follow?_eq_some_iff _ _ _).mp rfl)
      (by simp [Unknown, loss])
  have hNone : ¬ forsaken.Tended := by
    simp [Tended, forsaken, attached]
  exact
    ⟨forsaken, _, hPursued, Bool.false_ne_true,
      Bool.false_ne_true, fun rounds l' hRounds =>
        hPursued.free.forsaken hRounds hNone⟩

end Link

end Fota
