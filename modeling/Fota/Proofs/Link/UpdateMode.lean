import Fota.Link.Supervisor
import Fota.Proofs.Dialogue.Courses

/-
  This file shows that a supervisor holds its data link down, or
  lets go of it, only when its update mode is set.

  Key definitions include:
    * `Link.Question.Spares`
    * `Link.SameMode`
    * `Link.Spares`

  The main statements are `Link.spares_obeyFor` and
  `Link.spares_process`.
-/

namespace Fota

namespace Link

variable
  {α β : Type}
  {l l' : Link}

------------------------------------------------------------
-- Sparing Dialogues
------------------------------------------------------------

/- A question that leaves the hold on the data link as it is. -/
def Question.Spares : Question → Prop
| .suppressData _ => False
| _ => True

/- Two states of a link agree in technology and update mode. -/
structure SameMode
    (l l' : Link) : Prop where
  technology : l'.technology = l.technology
  updateMode : l'.updateMode = l.updateMode

/-
  A dialogue spares the data link: it leaves the hold on it as
  it is, and the update mode as well.
-/
structure Spares
    (l : Link)
    (after : α → Link)
    (d : Talk α) : Prop where
  asks : d.Asks Question.Spares
  yields : d.Yields (fun result => l.SameMode (after result))

@[simp]
theorem sameMode_refl :
    l.SameMode l :=
  ⟨rfl, rfl⟩

theorem SameMode.trans
    {l'' : Link}
    (hFirst : l.SameMode l')
    (hSecond : l'.SameMode l'') :
    l.SameMode l'' :=
  ⟨hSecond.technology.trans hFirst.technology,
    hSecond.updateMode.trans hFirst.updateMode⟩

/- A dialogue is over when the link is as before. -/
theorem spares_done
    {after : α → Link}
    {result : α}
    (hSame : l.SameMode (after result)) :
    l.Spares after (.done result) := by
  constructor
  · exact Dialogue.asks_done _ _
  · rw [Dialogue.yields_done]
    exact hSame

/- A question that spares the link may be asked first. -/
theorem spares_ask
    {after : α → Link}
    {question : Question}
    {resume : Answer question → Talk α}
    (hQuestion : question.Spares)
    (hResume : ∀ answer, l.Spares after (resume answer)) :
    l.Spares after (.ask question resume) := by
  constructor
  · rw [Dialogue.asks_ask]
    exact ⟨hQuestion, fun answer => (hResume answer).asks⟩
  · rw [Dialogue.yields_ask]
    intro answer
    exact (hResume answer).yields

/- Two dialogues in turn spare the link when each of them does. -/
theorem Spares.bind
    {after : α → Link}
    {after' : β → Link}
    {d : Talk α}
    {next : α → Talk β}
    (hFirst : l.Spares after d)
    (hNext : ∀ result, l.SameMode (after result) →
      (after result).Spares after' (next result)) :
    l.Spares after' (d >>= next) := by
  constructor
  · rw [Dialogue.asks_bind]
    refine ⟨hFirst.asks, ?_⟩
    apply hFirst.yields.mono
    intro result hSame
    exact (hNext result hSame).asks
  · rw [Dialogue.yields_bind]
    apply hFirst.yields.mono
    intro result hSame
    apply (hNext result hSame).yields.mono
    intro final hAfter
    exact hSame.trans hAfter

/- What spares a link spares one in the same mode. -/
theorem Spares.of_same
    {after : α → Link}
    {d : Talk α}
    (hSpares : l'.Spares after d)
    (hSame : l.SameMode l') :
    l.Spares after d := by
  refine ⟨hSpares.asks, ?_⟩
  apply hSpares.yields.mono
  intro result hAfter
  exact hSame.trans hAfter

------------------------------------------------------------
-- Attach and Detach
------------------------------------------------------------

theorem spares_setStatus
    (status : LinkStatus) :
    l.Spares id (l.setStatus status) := by
  apply spares_ask
  · trivial
  · intro _
    exact spares_done ⟨rfl, rfl⟩

/- An announcement is made before the dialogue goes on. -/
theorem spares_announce
    {after : α → Link}
    {what : Announcement}
    {d : Talk α}
    (hNext : l.Spares after d) :
    l.Spares after (do l'.announce what; d) := by
  apply spares_ask
  · trivial
  · intro _
    exact hNext

theorem spares_markConnected :
    l.Spares id l.markConnected := by
  unfold markConnected
  dsimp only
  split
  · exact spares_done ⟨rfl, rfl⟩
  · have hMarked :
        l.SameMode
          { l.disarm with
            connecting := false
            connected := true } :=
      ⟨rfl, rfl⟩
    apply Spares.of_same _ hMarked
    apply (spares_setStatus .connected).bind
    intro l' _
    apply spares_announce
    exact spares_done sameMode_refl

theorem spares_disconnect
    (reason : DropReason) :
    l.Spares Prod.snd (l.disconnect reason) := by
  have hDropped :
      ∀ l : Link,
        l.Spares Prod.snd (do
          let result ← Talk.disconnect
          let l :=
            { l with connecting := false, connected := false }
          let l ← l.disarm.setStatus .disconnected
          l.announce .disconnected
          return (result, l)) := by
    intro l
    apply spares_ask
    · trivial
    intro result
    have hSame :
        l.SameMode
          ({ l with
            connecting := false
            connected := false } : Link).disarm :=
      ⟨rfl, rfl⟩
    apply Spares.of_same _ hSame
    apply (spares_setStatus .disconnected).bind
    intro l' _
    apply spares_announce
    exact spares_done sameMode_refl
  unfold disconnect
  split
  · exact spares_done sameMode_refl
  · split
    · apply spares_ask
      · trivial
      intro _
      apply (spares_setStatus .disconnecting).bind
      intro l' _
      exact hDropped l'
    · apply (spares_setStatus .disconnecting).bind
      intro l' _
      exact hDropped l'

theorem spares_attach :
    l.Spares Prod.snd l.attach := by
  have hConnecting :
      l.SameMode { l with connecting := true } :=
    ⟨rfl, rfl⟩
  unfold attach
  apply Spares.of_same _ hConnecting
  apply (spares_setStatus .connecting).bind
  intro l' _
  apply spares_announce
  apply spares_ask
  · trivial
  intro answer
  cases answer with
  | ok begun =>
      exact spares_done sameMode_refl
  | error fault =>
      have hFailed :
          SameMode (id l')
            { l'.disarm with connecting := false } :=
        ⟨rfl, rfl⟩
      apply Spares.of_same _ hFailed
      apply (spares_setStatus .disconnected).bind
      intro l'' _
      exact spares_done sameMode_refl

------------------------------------------------------------
-- Power
------------------------------------------------------------

theorem spares_on :
    l.Spares Prod.snd l.on := by
  unfold on
  split
  · exact spares_done sameMode_refl
  · apply spares_ask
    · trivial
    intro answer
    cases answer with
    | error fault =>
        exact spares_done sameMode_refl
    | ok done =>
        apply spares_announce
        exact spares_done ⟨rfl, rfl⟩

theorem spares_off :
    l.Spares Prod.snd l.off := by
  unfold off
  split
  · exact spares_done sameMode_refl
  · apply (spares_disconnect .powerOff).bind
    intro dropped _
    apply spares_ask
    · trivial
    intro answer
    cases answer with
    | error fault =>
        exact spares_done sameMode_refl
    | ok done =>
        apply spares_announce
        exact spares_done ⟨rfl, rfl⟩

------------------------------------------------------------
-- Connecting
------------------------------------------------------------

theorem sameMode_listenForCredentials :
    l.SameMode l.listenForCredentials := by
  unfold listenForCredentials
  split
  · exact ⟨rfl, rfl⟩
  · exact sameMode_refl

theorem spares_attempt :
    l.Spares Prod.snd l.attempt := by
  unfold attempt
  apply spares_ask
  · trivial
  intro now
  dsimp only
  apply spares_ask
  · trivial
  intro _
  have hArmed :
      l.SameMode
        { l with
          watchdog := l.watchdog.arm now
            l.policy.connectWatchdog } :=
    ⟨rfl, rfl⟩
  apply Spares.of_same _ hArmed
  apply spares_on.bind
  intro powered _
  apply spares_ask
  · trivial
  intro known
  cases known with
  | false =>
      have hDisarmed : powered.2.SameMode powered.2.disarm :=
        ⟨rfl, rfl⟩
      exact
        spares_done
          (hDisarmed.trans sameMode_listenForCredentials)
  | true =>
      rcases powered with ⟨answer, l'⟩
      cases answer with
      | error fault =>
          exact spares_done ⟨rfl, rfl⟩
      | ok done =>
          change l'.Spares Prod.snd
            (if l'.updateMode then _ else l'.attach)
          split
          · exact spares_done ⟨rfl, rfl⟩
          · exact spares_attach

theorem spares_connect :
    l.Spares Prod.snd l.connect := by
  unfold connect
  apply spares_ask
  · trivial
  intro ready
  cases ready with
  | true =>
      apply spares_markConnected.bind
      intro l' _
      exact spares_done sameMode_refl
  | false =>
      change l.Spares Prod.snd (if _ then _ else l.attempt)
      split
      · exact spares_done sameMode_refl
      · exact spares_attempt

------------------------------------------------------------
-- Supervision
------------------------------------------------------------

theorem spares_updateListening
    (now : Instant) :
    l.Spares id (l.updateListening now) := by
  unfold updateListening
  generalize l.listening.update now = updated
  rcases updated with ⟨change, listening⟩
  have hListening :
      l.SameMode { l with listening := listening } :=
    ⟨rfl, rfl⟩
  apply Spares.of_same _ hListening
  cases change with
  | none =>
      exact spares_done sameMode_refl
  | some change =>
      cases change with
      | started =>
          apply (spares_disconnect .listening).bind
          intro dropped _
          apply spares_announce
          exact spares_done sameMode_refl
      | stopped =>
          apply spares_announce
          exact spares_done sameMode_refl

theorem spares_superviseAttempt
    (now : Instant) :
    l.Spares id (l.superviseAttempt now) := by
  unfold superviseAttempt
  apply spares_ask
  · trivial
  intro ready
  cases ready with
  | true =>
      exact spares_markConnected
  | false =>
      change l.Spares id (if _ then _ else _)
      split
      · apply spares_ask
        · trivial
        intro _
        apply (spares_disconnect .reset).bind
        intro dropped _
        apply spares_connect.bind
        intro connected _
        exact spares_done sameMode_refl
      · exact spares_done sameMode_refl

theorem spares_superviseLink :
    l.Spares id l.superviseLink := by
  unfold superviseLink
  apply spares_ask
  · trivial
  intro ready
  cases ready with
  | true =>
      exact spares_done sameMode_refl
  | false =>
      have hLost : l.SameMode { l with connected := false } :=
        ⟨rfl, rfl⟩
      apply Spares.of_same _ hLost
      apply (spares_setStatus .disconnected).bind
      intro l' _
      apply spares_announce
      apply spares_connect.bind
      intro connected _
      exact spares_done sameMode_refl

/- A round of supervision spares the data link. -/
theorem spares_process :
    l.Spares id l.process := by
  unfold process
  apply spares_ask
  · trivial
  intro now
  apply (spares_updateListening now).bind
  intro l' _
  change l'.Spares id
    (if l'.connecting then _ else if l'.connected then _ else _)
  split
  · exact spares_superviseAttempt now
  · split
    · exact spares_superviseLink
    · exact spares_done sameMode_refl

------------------------------------------------------------
-- Orders
------------------------------------------------------------

/- An order spares the data link, whatever it is for. -/
theorem spares_obeyFor
    (technology : Technology)
    (order : Order) :
    l.Spares Prod.snd (l.obeyFor technology order) := by
  unfold obeyFor
  split
  · cases order with
    | on => exact spares_on
    | off => exact spares_off
    | connect => exact spares_connect
    | disconnect reason => exact spares_disconnect reason
  · exact spares_done sameMode_refl

end Link

end Fota
