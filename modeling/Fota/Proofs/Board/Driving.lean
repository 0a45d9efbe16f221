import Fota.Board.Firmware
import Fota.Proofs.Link.Supervision

/-
  This file defines driven devices: the states that a device can
  come to since its power-up, by its updater, its supervision
  and operations on its link, on any hardware. It says what each
  of them does to the link, and that all which firmware does is
  covered.

  Key definitions include:
    * `Device.Driven`
    * `Device.SameLink`
    * `Device.operation?`

  The main statements are `Device.operates_of_answer`,
  `Device.run_supervise`, `Firmware.driven_boot` and
  `Firmware.driven_tick`.
-/

namespace Fota

namespace Device

variable
  {σ : Type}
  [Hardware σ]
  {d d' : Device σ}

------------------------------------------------------------
-- Driven Devices
------------------------------------------------------------

/-
  A device since its power-up. It answers the updater, it
  supervises its link and carries out operations on it. Besides,
  what outlasts the firmware changes, except that only the
  announcements tell the cloud whether the link is up.
-/
inductive Driven :
    Device σ → Prop where
| boots
    {updatesEnabled updatesAllowed : Bool}
    {base : Base σ}
    {d : Device σ}
    (hCloud : base.cloud = .fresh updatesAllowed)
    (hBoot : Device.boot updatesEnabled base = .ok d) :
    Driven d
| answers
    {d d' : Device σ}
    {question : Update.Question}
    {answer : Update.Answer question}
    (hDriven : Driven d)
    (hAnswer :
      (Device.answer question).run.run d = (.ok answer, d')) :
    Driven d'
| supervises
    {d : Device σ}
    (hDriven : Driven d) :
    Driven (Device.supervise.run d).2
| operates
    {d : Device σ}
    (hDriven : Driven d)
    (operation : Link.Operation) :
    Driven
      ((Device.withLink_ (Link.carryOut operation)).run d).2
| changes
    {d : Device σ}
    (hDriven : Driven d)
    (base : Base σ)
    (hHeard : base.cloud.linkUp = d.base.cloud.linkUp) :
    Driven { d with base := base }

------------------------------------------------------------
-- Acts of a Device
------------------------------------------------------------

/-
  Two devices agree in the link, in its driver and in what the
  cloud has heard of it.
-/
structure SameLink
    (d d' : Device σ) : Prop where
  link : d'.link = d.link
  sara : d'.sara = d.sara
  linkUp : d'.base.cloud.linkUp = d.base.cloud.linkUp

omit [Hardware σ] in
theorem sameLink_trans
    {d'' : Device σ}
    (hFirst : d.SameLink d')
    (hSecond : d'.SameLink d'') :
    d.SameLink d'' :=
  ⟨hSecond.link.trans hFirst.link,
    hSecond.sara.trans hFirst.sara,
    hSecond.linkUp.trans hFirst.linkUp⟩

/- The supervisor talks, and then the device keeps its link. -/
theorem run_withLink_
    (act : Link → Link.Talk Link)
    (d : Device σ) :
    ((withLink_ act).run d).2 =
      { (((act d.link).run answerLink).run d).2 with
        link := (((act d.link).run answerLink).run d).1 } := by
  unfold withLink_ withLink
  simp only [StateT.run_bind, StateT.run_get, pure_bind,
    Dialogue.run_bind]
  rfl

/- An order for the link is an operation on it. -/
theorem run_order
    (technology : Technology)
    (order : Link.Order)
    (d : Device σ) :
    ((Device.order technology order).run d).2 =
      ((withLink_
        (Link.carryOut (.obeyFor technology order))).run
          d).2 := by
  rw [run_withLink_, Link.carryOut, Dialogue.run_bind]
  rfl

/- The operation on the link by which a question is answered. -/
def operation? : Update.Question → Option Link.Operation
| .networkOn => some (.obeyFor .cellular .on)
| .networkOff => some (.obeyFor .cellular .off)
| .networkConnect => some (.obeyFor .cellular .connect)
| .networkDisconnect reason =>
    some (.obeyFor .cellular (.disconnect reason))
| .setUpdateMode enabled =>
    some (.setUpdateMode .cellular enabled)
| _ => none

/-
  To answer the updater, a device carries out the operation on
  its link, or it leaves the link alone when there is none.
-/
theorem operates_of_answer
    {question : Update.Question}
    {answer : Update.Answer question}
    (hAnswer :
      (Device.answer question).run.run d = (.ok answer, d')) :
    match operation? question with
    | some operation =>
        d' = ((withLink_ (Link.carryOut operation)).run d).2
    | none => d.SameLink d' := by
  have hNext := congrArg Prod.snd hAnswer
  subst hNext
  cases question with
  | networkOn => exact run_order .cellular .on d
  | networkOff => exact run_order .cellular .off d
  | networkConnect => exact run_order .cellular .connect d
  | networkDisconnect reason =>
      exact run_order .cellular (.disconnect reason) d
  | setUpdateMode enabled => rfl
  | resetToSafeMode => cases hAnswer
  | resetToNormalMode => cases hAnswer
  | store record =>
      change d.SameLink (d.cacheSet .updateRecord record).2
      unfold cacheSet keepFlash
      split
      · exact ⟨rfl, rfl, rfl⟩
      · exact ⟨rfl, rfl, rfl⟩
  | _ => exact ⟨rfl, rfl, rfl⟩

/- So it carries out some operation, or spares its link. -/
theorem operates_or_spares
    {question : Update.Question}
    {answer : Update.Answer question}
    (hAnswer :
      (Device.answer question).run.run d = (.ok answer, d')) :
    (∃ operation,
      d' = ((withLink_ (Link.carryOut operation)).run d).2) ∨
      d.SameLink d' := by
  have hOperates := operates_of_answer hAnswer
  split at hOperates
  · next operation _ => exact .inl ⟨operation, hOperates⟩
  · exact .inr hOperates

/-
  To look at the registration only tells the driver whether the
  modem is attached.
-/
theorem sameLink_pollRegistration
    (d : Device σ) :
    let looking := { d with lastRegistrationPoll := some d.now }
    SameLink
      { d with
        sara :=
          d.sara.setRegistered
            ((attach.run send).run looking).1 }
      (pollRegistration.run d).2 := by
  intro looking
  have hSent :
      ∀ (command : Command) (state : Device σ), True →
        d.SameLink state →
        d.SameLink ((send command).run state).2 := by
    intro command state _ hSame
    exact sameLink_trans hSame ⟨rfl, rfl, rfl⟩
  have hStart : d.SameLink looking := ⟨rfl, rfl, rfl⟩
  have hRun :=
    (Dialogue.run_keeps send (Dialogue.asks_true attach)
      (Dialogue.yields_true attach) hSent hStart).2
  exact
    ⟨hRun.link, congrArg (Sara.setRegistered _) hRun.sara,
      hRun.linkUp⟩

/-
  A round of supervision looks at the registration if it is time
  to, and then lets the supervisor act.
-/
theorem run_supervise
    (d : Device σ) :
    Device.supervise.run d =
      (withLink_ Link.process).run
        (if d.sara.wantsRegistration ∧ d.IsPollDue then
          (pollRegistration.run d).2
        else
          d) := by
  unfold Device.supervise
  by_cases hPoll : d.sara.wantsRegistration ∧ d.IsPollDue
  · rw [if_pos hPoll]
    simp only [StateT.run_bind, StateT.run_get, pure_bind,
      if_pos hPoll]
    rfl
  · rw [if_neg hPoll]
    simp only [StateT.run_bind, StateT.run_get, pure_bind,
      if_neg hPoll]

------------------------------------------------------------
-- Commands of a Device
------------------------------------------------------------

theorem run_send
    {command : Command}
    {reply : Reply}
    {client : Client}
    {hardware : σ}
    (hExchange :
      d.client.exchange command.text command.patience
          d.base.hardware =
        (reply, client, hardware)) :
    (send command).run d = (reply, d.keep client hardware) := by
  unfold send exchange
  simp only [StateT.run_modifyGet, hExchange]
  rfl

/- A command that looks for a line looks for it in its reply. -/
theorem run_sendAny
    {command : Command}
    {matching : String → Bool}
    {reply : Reply}
    {client : Client}
    {hardware : σ}
    (hFits : command.Fits)
    (hExchange :
      d.client.exchange command.text command.patience
          d.base.hardware =
        (reply, client, hardware)) :
    ((Procedure.sendAny command matching).run send).run d =
      (reply.outcome.isOk && reply.lines.any matching,
        d.keep client hardware) := by
  unfold Procedure.sendAny Procedure.send
  rw [if_pos hFits]
  simp only [Dialogue.query, Dialogue.ask_bind,
    Dialogue.done_bind, Dialogue.pure_eq_done, Dialogue.run_ask,
    Dialogue.run_done, StateT.run_bind, StateT.run_pure,
    run_send hExchange]
  rfl

end Device

------------------------------------------------------------
-- Firmware
------------------------------------------------------------

namespace Firmware

variable
  {σ : Type}
  [Hardware σ]
  {α : Type}

theorem talk_ask
    (question : Update.Question)
    (resume : Update.Answer question → Update.Talk α)
    (d : Device σ) :
    talk (.ask question resume) d =
      match (Device.answer question).run.run d with
      | (.ok given, next) => talk (resume given) next
      | (.error reset, next) => (.error reset, next) := by
  unfold talk
  rw [Dialogue.run_ask, ExceptT.run_bind, StateT.run_bind]
  rcases (Device.answer question).run.run d with
    ⟨reset | given, next⟩
  · rfl
  · rfl

/- A device is driven while the updater talks with it. -/
theorem driven_talk
    {dialogue : Update.Talk α}
    {d d' : Device σ}
    {a : α}
    (hDriven : d.Driven)
    (hTalk : talk dialogue d = (.ok a, d')) :
    d'.Driven := by
  induction dialogue generalizing d with
  | done result =>
      cases hTalk
      exact hDriven
  | ask question resume ih =>
      rw [talk_ask] at hTalk
      split at hTalk
      · next given next hAnswer =>
          exact ih given (hDriven.answers hAnswer) hTalk
      · cases hTalk

/- Asking for the link is what the updater may do as well. -/
theorem driven_startLink
    {d : Device σ}
    (start : Start)
    (hDriven : d.Driven) :
    ((startLink start).run d).2.Driven := by
  have hAnswer :
      (Device.answer .networkConnect).run.run d =
        (.ok ((Device.order .cellular .connect).run d).1,
          ((Device.order .cellular .connect).run d).2) :=
    rfl
  unfold startLink
  split
  · exact hDriven.answers hAnswer
  · exact hDriven

/- So is the device of firmware that was started, -/
theorem driven_boot
    {start : Start}
    {base : Base σ}
    {f : Firmware σ}
    {connected : Option (Except Fault Unit)}
    (hBoot : boot start base = .running f connected) :
    f.device.Driven := by
  unfold boot at hBoot
  dsimp only at hBoot
  split at hBoot
  · cases hBoot
  · next d hDevice =>
      have hBooted : d.Driven := .boots rfl hDevice
      split at hBoot
      · cases hBoot
      · next updater d' hTalk =>
          cases hBoot
          exact driven_startLink start (driven_talk hBooted hTalk)

/- of firmware that was asked for something, -/
theorem driven_request
    {ask : Updater → Update.Talk (Except Fault Updater)}
    {f f' : Firmware σ}
    {result : Except Fault Unit}
    (hDriven : f.device.Driven)
    (hRequest : f.request ask = .done result f') :
    f'.device.Driven := by
  unfold request at hRequest
  split at hRequest
  · cases hRequest
  · next hTalk =>
      cases hRequest
      exact driven_talk hDriven hTalk
  · next hTalk =>
      cases hRequest
      exact driven_talk hDriven hTalk

/- and of firmware after a tick. -/
theorem driven_tick
    {f f' : Firmware σ}
    {result : Except Fault Unit}
    (hDriven : f.device.Driven)
    (hTick : f.tick = .done result f') :
    f'.device.Driven :=
  driven_request hDriven.supervises hTick

end Firmware

end Fota
