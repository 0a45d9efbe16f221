import Fota.Board.Device
import Fota.Proofs.Link.UpdateMode
import Fota.Proofs.Update.Life

/-
  This file relates the courses of boots to devices: a device
  serves a course when it has answered what was asked in it. Its
  update mode is then that of the course, and while the mode is
  on, its supervision sends no command to the modem.

  Key definitions include:
    * `Device.Tied`
    * `Device.Serves`
    * `Device.Silent`

  The main statements are `Device.Serves.tied` and
  `Device.silent_of_updateMode`.
-/

namespace Fota

open Update (Course Question)

namespace Device

variable
  {σ : Type}
  {d d' : Device σ}
  {mode : Bool}

------------------------------------------------------------
-- Tied Devices
------------------------------------------------------------

/-
  The cellular link is in an update mode, and the driver holds
  its data link down just when that mode is on.
-/
structure Tied
    (mode : Bool)
    (d : Device σ) : Prop where
  technology : d.link.technology = .cellular
  updateMode : d.link.updateMode = mode
  suppressed : d.sara.suppressed = mode

/- Two devices agree in the link and the hold on its data. -/
structure SameHold
    (d d' : Device σ) : Prop where
  link : d'.link = d.link
  suppressed : d'.sara.suppressed = d.sara.suppressed

theorem Tied.of_same
    (hTied : d.Tied mode)
    (hSame : d.SameHold d') :
    d'.Tied mode := by
  constructor
  · rw [hSame.link]
    exact hTied.technology
  · rw [hSame.link]
    exact hTied.updateMode
  · rw [hSame.suppressed]
    exact hTied.suppressed

theorem sameHold_trans
    {d'' : Device σ}
    (hFirst : d.SameHold d')
    (hSecond : d'.SameHold d'') :
    d.SameHold d'' :=
  ⟨hSecond.link.trans hFirst.link,
    hSecond.suppressed.trans hFirst.suppressed⟩

------------------------------------------------------------
-- Acts of the Link
------------------------------------------------------------

variable [Hardware σ]

/- A question that spares the link leaves the hold as it is. -/
theorem sameHold_answerLink
    {question : Link.Question}
    (hQuestion : question.Spares) :
    d.SameHold ((answerLink question).run d).2 := by
  cases question with
  | suppressData suppressed =>
      exact hQuestion.elim
  | beginConnect =>
      refine ⟨rfl, ?_⟩
      change (d.sara.beginConnect d.base.hardware).2.suppressed =
        d.sara.suppressed
      unfold Sara.beginConnect
      split <;> rfl
  | powerOff =>
      refine ⟨rfl, ?_⟩
      change (d.sara.powerOff d.base.hardware).2.1.suppressed =
        d.sara.suppressed
      unfold Sara.powerOff
      dsimp only
      split <;> rfl
  | _ =>
      exact ⟨rfl, rfl⟩

/- An act that spares the link leaves a device tied. -/
theorem Tied.withLink
    {α : Type}
    {act : Link → Link.Talk (α × Link)}
    (hTied : d.Tied mode)
    (hSpares : d.link.Spares Prod.snd (act d.link)) :
    ((Device.withLink act).run d).2.Tied mode := by
  have hKept :
      ∀ question (state : Device σ), question.Spares →
        d.SameHold state →
        d.SameHold ((answerLink question).run state).2 := by
    intro question state hQuestion hSame
    exact
      sameHold_trans hSame (sameHold_answerLink hQuestion)
  have hStart : d.SameHold d := ⟨rfl, rfl⟩
  have hRun :=
    Dialogue.run_keeps answerLink hSpares.asks hSpares.yields
      hKept hStart
  rcases hRun with ⟨hLink, hHold⟩
  constructor
  · exact hLink.technology.trans hTied.technology
  · exact hLink.updateMode.trans hTied.updateMode
  · exact hHold.suppressed.trans hTied.suppressed

theorem Tied.withLink_
    {act : Link → Link.Talk Link}
    (hTied : d.Tied mode)
    (hSpares : d.link.Spares id (act d.link)) :
    ((Device.withLink_ act).run d).2.Tied mode := by
  apply hTied.withLink
  apply hSpares.bind
  intro l _
  exact Link.spares_done Link.sameMode_refl

/- An order for the link leaves a device tied. -/
theorem Tied.order
    (hTied : d.Tied mode)
    (technology : Technology)
    (order : Link.Order) :
    ((Device.order technology order).run d).2.Tied mode :=
  hTied.withLink (Link.spares_obeyFor technology order)

/- Setting the update mode holds the data link, or lets it go. -/
theorem Tied.setUpdateMode
    (hTied : d.Tied mode)
    (enabled : Bool) :
    ((Device.setUpdateMode .cellular enabled).run d).2.Tied
      enabled := by
  have hTechnology := hTied.technology
  have hMode := hTied.updateMode
  have hHeld := hTied.suppressed
  unfold Device.setUpdateMode Device.withLink_ Device.withLink
    Link.setUpdateModeFor Link.setUpdateMode
  by_cases hSame : d.link.updateMode = enabled
  · have hEnabled : mode = enabled := hMode.symm.trans hSame
    simp [hTechnology, hSame]
    rw [← hEnabled]
    exact ⟨hTechnology, hMode, hHeld⟩
  · simp [hTechnology, hSame, Link.Talk.suppressData, answerLink]
    exact ⟨rfl, rfl, rfl⟩

------------------------------------------------------------
-- Supervision
------------------------------------------------------------

/-
  The supervision of a device only looks after the link, which
  has no command for the modem to send.
-/
def Silent
    (d : Device σ) : Prop :=
  supervise.run d = (withLink_ Link.process).run d

/- While the update mode is on, supervision is silent. -/
theorem silent_of_updateMode
    (hTied : d.Tied true) :
    d.Silent := by
  have hUnwanted : d.sara.wantsRegistration = false := by
    unfold Sara.wantsRegistration
    rw [hTied.suppressed]
    simp
  unfold Silent supervise
  simp [hUnwanted]

/- Looking at the registration leaves the hold as it is. -/
theorem sameHold_pollRegistration :
    d.SameHold (pollRegistration.run d).2 := by
  have hSent :
      ∀ (command : Command) (state : Device σ), True →
        d.SameHold state →
        d.SameHold ((send command).run state).2 := by
    intro command state _ hSame
    exact sameHold_trans hSame ⟨rfl, rfl⟩
  have hAsks : attach.Asks (fun _ => True) :=
    Dialogue.asks_true attach
  have hStart :
      d.SameHold { d with lastRegistrationPoll := some d.now } :=
    ⟨rfl, rfl⟩
  have hRun :=
    (Dialogue.run_keeps send hAsks (Dialogue.yields_true attach)
      hSent hStart).2
  exact sameHold_trans hRun ⟨rfl, rfl⟩

/- A round of supervision leaves a device tied. -/
theorem Tied.supervise
    (hTied : d.Tied mode) :
    (Device.supervise.run d).2.Tied mode := by
  unfold Device.supervise
  by_cases hPoll : d.sara.wantsRegistration ∧ d.IsPollDue
  · have hPolled := hTied.of_same sameHold_pollRegistration
    have hRound := hPolled.withLink_ Link.spares_process
    simp [hPoll]
    exact hRound
  · simp [hPoll]
    exact hTied.withLink_ Link.spares_process

------------------------------------------------------------
-- Served Courses
------------------------------------------------------------

/-
  A device serves the course of a boot: it has answered what was
  asked. Besides, notices arrive, it supervises its link and
  obeys orders for it, and what outlasts the firmware changes.
-/
inductive Serves :
    Course → Device σ → Prop where
| boots
    {updatesEnabled : Bool}
    {base : Base σ}
    {slot : Option (List UInt8)}
    {d : Device σ}
    (hBoot : Device.boot updatesEnabled base = .ok d) :
    Serves (.fresh slot d.safeMode) d
| hears
    {c : Course}
    {d : Device σ}
    (hServes : Serves c d)
    (lines : List String) :
    Serves (c.hear lines) d
| answers
    {c : Course}
    {d d' : Device σ}
    {question : Question}
    {answer : Update.Answer question}
    (hServes : Serves c d)
    (hAnswer :
      (Device.answer question).run.run d = (.ok answer, d')) :
    Serves (c.note (.asked question answer)) d'
| supervises
    {c : Course}
    {d : Device σ}
    (hServes : Serves c d) :
    Serves c (Device.supervise.run d).2
| obeys
    {c : Course}
    {d : Device σ}
    (hServes : Serves c d)
    (technology : Technology)
    (order : Link.Order) :
    Serves c ((Device.order technology order).run d).2
| changes
    {c : Course}
    {d : Device σ}
    (hServes : Serves c d)
    (base : Base σ) :
    Serves c { d with base := base }

/- A device whose firmware has just begun is in no update mode. -/
theorem tied_boot
    {updatesEnabled : Bool}
    {base : Base σ}
    (hBoot : Device.boot updatesEnabled base = .ok d) :
    d.Tied false := by
  unfold Device.boot at hBoot
  dsimp only at hBoot
  cases hCache :
      Cache.atEnd Device.target (Hardware.flash base.hardware)
    with
  | error fault =>
      rw [hCache] at hBoot
      cases hBoot
  | ok cache =>
      rw [hCache] at hBoot
      cases hBoot
      exact ⟨rfl, rfl, rfl⟩

/- An answer to the updater leaves a device tied. -/
theorem Tied.answer
    {question : Question}
    {answer : Update.Answer question}
    (hTied : d.Tied mode)
    (hAnswer :
      (Device.answer question).run.run d = (.ok answer, d')) :
    d'.Tied
      ((Update.Happening.asked question answer).onMode mode) := by
  have hNext := congrArg Prod.snd hAnswer
  have hSame : d.SameHold d' → d'.Tied mode := hTied.of_same
  cases question with
  | networkOn =>
      subst hNext
      exact hTied.order .cellular .on
  | networkOff =>
      subst hNext
      exact hTied.order .cellular .off
  | networkConnect =>
      subst hNext
      exact hTied.order .cellular .connect
  | networkDisconnect reason =>
      subst hNext
      exact hTied.order .cellular (.disconnect reason)
  | setUpdateMode enabled =>
      subst hNext
      exact hTied.setUpdateMode enabled
  | resetToSafeMode =>
      cases hAnswer
  | resetToNormalMode =>
      cases hAnswer
  | store record =>
      apply hSame
      subst hNext
      change d.SameHold (d.cacheSet .updateRecord record).2
      unfold cacheSet keepFlash
      split
      · exact ⟨rfl, rfl⟩
      · exact ⟨rfl, rfl⟩
  | _ =>
      apply hSame
      subst hNext
      exact ⟨rfl, rfl⟩

/- A device is in the update mode of the course that it serves. -/
theorem Serves.tied
    {c : Course}
    (hServes : Serves c d) :
    d.Tied c.updateMode := by
  induction hServes with
  | boots hBoot =>
      exact tied_boot hBoot
  | hears hServes lines ih =>
      rw [Update.Course.updateMode_hear]
      exact ih
  | answers hServes hAnswer ih =>
      rw [Update.Course.updateMode_note]
      exact ih.answer hAnswer
  | supervises hServes ih =>
      exact ih.supervise
  | obeys hServes technology order ih =>
      exact ih.order technology order
  | changes hServes base ih =>
      exact ih.of_same ⟨rfl, rfl⟩

end Device

end Fota
