import Fota.Proofs.Board.Sessions
import Fota.Proofs.Link.Guards

/-
  This file shows that supervision stays off the channel to the
  modem when it must. The driver, the supervisor of the link and
  the device keep their own account of power, attach and hold;
  the accounts agree in every state of a driven device. So while
  the data link is held down, and once the modem was powered
  off, supervision does no more than to wait and to press the
  power key.

  Key definitions include:
    * `Hardware.Passes`
    * `Device.OffChannel`
    * `Link.Coherent`
    * `Device.Rests`

  The main statement is `Device.supervision_off_channel`.
-/

namespace Fota

------------------------------------------------------------
-- Hardware without the Port
------------------------------------------------------------

namespace Hardware

variable
  {σ : Type}
  [Hardware σ]
  {s s' : σ}

/-
  On the way from one state of the hardware to another, time
  passes and the power key moves. Nothing is read from the port
  and nothing is written to it.
-/
inductive Passes
    (s : σ) : σ → Prop
| stay :
    Passes s s
| delay
    {s' : σ}
    (hPasses : Passes s s')
    (ms : UInt32) :
    Passes s (Hardware.delay ms s')
| press
    {s' : σ}
    (hPasses : Passes s s') :
    Passes s (Hardware.pressKey s')
| release
    {s' : σ}
    (hPasses : Passes s s') :
    Passes s (Hardware.releaseKey s')

theorem Passes.trans
    {s'' : σ}
    (hFirst : Passes s s')
    (hSecond : Passes s' s'') :
    Passes s s'' := by
  induction hSecond with
  | stay => exact hFirst
  | delay _ ms ih => exact ih.delay ms
  | press _ ih => exact ih.press
  | release _ ih => exact ih.release

end Hardware

namespace Sara

variable
  {σ : Type}
  [Hardware σ]

/- A wait for the supply only looks at it from time to time. -/
theorem passes_awaitSupply
    (up : Bool)
    (deadline : Instant)
    (s : σ) :
    Hardware.Passes s (awaitSupply up deadline s).2 := by
  fun_induction awaitSupply up deadline s with
  | case1 s hThere => exact .stay
  | case2 s hNotThere hLate => exact .stay
  | case3 s hNotThere hEarly ih =>
      exact (Hardware.Passes.stay.delay supplyPoll).trans ih

theorem passes_switchSupply
    (up : Bool)
    (duration : UInt32)
    (r : Sara)
    (s : σ) :
    Hardware.Passes s (switchSupply up duration r s).2 :=
  ((Hardware.Passes.stay.press).delay duration).release.trans
    (passes_awaitSupply up _ _)

theorem passes_powerOn
    (r : Sara)
    (s : σ) :
    Hardware.Passes s (r.powerOn s).2 := by
  unfold powerOn
  split
  · exact .stay
  · exact passes_switchSupply true onPress r s

theorem passes_powerOff
    (r : Sara)
    (s : σ) :
    Hardware.Passes s (r.powerOff s).2.2 := by
  unfold powerOff
  dsimp only
  split
  · exact passes_switchSupply false offPress r.disconnect s
  · exact .stay

end Sara

------------------------------------------------------------
-- Devices off the Channel
------------------------------------------------------------

namespace Device

variable
  {σ : Type}
  [Hardware σ]
  {d d' : Device σ}

/-
  From one device to another, nothing was exchanged with the
  modem: no command was sent and no line was read.
-/
structure OffChannel
    (d d' : Device σ) : Prop where
  hardware : Hardware.Passes d.base.hardware d'.base.hardware
  buffer : d'.buffer = d.buffer
  mailbox : d'.base.mailbox = d.base.mailbox

theorem OffChannel.trans
    {d'' : Device σ}
    (hFirst : d.OffChannel d')
    (hSecond : d'.OffChannel d'') :
    d.OffChannel d'' :=
  ⟨hFirst.hardware.trans hSecond.hardware,
    hSecond.buffer.trans hFirst.buffer,
    hSecond.mailbox.trans hFirst.mailbox⟩

/- What the supervisor asks is answered off the channel. -/
theorem offChannel_answerLink
    (question : Link.Question)
    (d : Device σ) :
    d.OffChannel ((answerLink question).run d).2 := by
  cases question with
  | powerOn =>
      exact
        ⟨Sara.passes_powerOn d.sara d.base.hardware, rfl, rfl⟩
  | powerOff =>
      exact
        ⟨Sara.passes_powerOff d.sara d.base.hardware, rfl, rfl⟩
  | _ =>
      exact ⟨.stay, rfl, rfl⟩

/- So whatever the supervisor does, it does off the channel. -/
theorem offChannel_withLink_
    (act : Link → Link.Talk Link)
    (d : Device σ) :
    d.OffChannel ((withLink_ act).run d).2 := by
  have hAnswered :
      ∀ question (state : Device σ), True →
        d.OffChannel state →
        d.OffChannel ((answerLink question).run state).2 :=
    fun question state _ hOff =>
      hOff.trans (offChannel_answerLink question state)
  have hStart : d.OffChannel d := ⟨.stay, rfl, rfl⟩
  have hRun :=
    (Dialogue.run_keeps answerLink
      (Dialogue.asks_true (act d.link))
      (Dialogue.yields_true (act d.link)) hAnswered hStart).2
  rw [run_withLink_]
  exact ⟨hRun.hardware, hRun.buffer, hRun.mailbox⟩

/- Without an attach that is wanted, so is supervision. -/
theorem offChannel_supervise
    (hUnwanted : d.sara.wantsRegistration = false) :
    d.OffChannel (supervise.run d).2 := by
  rw [run_supervise, if_neg (by simp [hUnwanted])]
  exact offChannel_withLink_ Link.process d

end Device

------------------------------------------------------------
-- What the Driver Is Told
------------------------------------------------------------

namespace Sara

/-
  The driver behind an exchange of the supervisor, and whether
  all exchanges so far told the truth about its readiness.
-/
def heed :
    Sara × Bool → Link.Exchange → Sara × Bool
| (r, truthful), ⟨.isReady, ready⟩ =>
    (r, truthful && ready == r.isReady)
| (r, truthful), ⟨.powerOff, _⟩ => (r.disconnect, truthful)
| (r, truthful), ⟨.disconnect, _⟩ => (r.disconnect, truthful)
| (r, truthful), ⟨.beginConnect, .ok _⟩ =>
    ({ r with attachRequested := true }, truthful)
| (r, truthful), ⟨.suppressData suppressed, _⟩ =>
    (r.suppressData suppressed, truthful)
| told, _ => told

end Sara

/- A device answers as its driver does, and so truthfully. -/
theorem Device.heed_answerLink
    {σ : Type}
    [Hardware σ]
    (question : Link.Question)
    (d : Device σ) :
    (((answerLink question).run d).2.sara, true) =
      Sara.heed (d.sara, true)
        ⟨question, ((answerLink question).run d).1⟩ := by
  cases question with
  | isReady =>
      change (d.sara, true) =
        (d.sara, true && (d.sara.isReady == d.sara.isReady))
      rw [beq_self_eq_true, Bool.and_true]
  | powerOff =>
      change ((d.sara.powerOff d.base.hardware).2.1, true) =
        (d.sara.disconnect, true)
      unfold Sara.powerOff
      dsimp only
      split <;> rfl
  | beginConnect =>
      change ((d.sara.beginConnect d.base.hardware).2, true) =
        Sara.heed (d.sara, true)
          ⟨.beginConnect,
            (d.sara.beginConnect d.base.hardware).1⟩
      unfold Sara.beginConnect
      split <;> rfl
  | _ => rfl

------------------------------------------------------------
-- Coherent Links
------------------------------------------------------------

namespace Link

/-
  The accounts of a cellular link and of its driver agree. The
  data link is held down just in update mode; only with power an
  attach is asked for, is under way or has come about.
-/
structure Coherent
    (l : Link)
    (r : Sara) : Prop where
  technology : l.technology = .cellular
  suppressed : r.suppressed = l.updateMode
  attach : r.attachRequested → l.powered
  connecting : l.connecting → l.powered
  connected : l.connected → l.powered

variable
  {l l' : Link}
  {r : Sara}
  {told : Sara × Bool}
  {talk : List Exchange}
  {now : Instant}

/- The accounts agree, provided that the driver told the truth. -/
def Agreed
    (l : Link)
    (told : Sara × Bool) : Prop :=
  told.2 = true → l.Coherent told.1

/- A link that differs in less than power stays coherent. -/
theorem Coherent.congr
    (hCoherent : l.Coherent r)
    (hTechnology : l'.technology = l.technology)
    (hMode : l'.updateMode = l.updateMode)
    (hPowered : l'.powered = l.powered)
    (hConnecting : l'.connecting → l.connecting)
    (hConnected : l'.connected → l.connected) :
    l'.Coherent r where
  technology := hTechnology.trans hCoherent.technology
  suppressed := hCoherent.suppressed.trans hMode.symm
  attach hAttach := hPowered ▸ hCoherent.attach hAttach
  connecting hOn :=
    hPowered ▸ hCoherent.connecting (hConnecting hOn)
  connected hOn :=
    hPowered ▸ hCoherent.connected (hConnected hOn)

/- To detach the driver asks for no power. -/
theorem Coherent.disconnect
    (hCoherent : l.Coherent r) :
    l.Coherent r.disconnect :=
  { hCoherent with attach := nofun }

/- A driver that is ready has asked for an attach. -/
theorem Coherent.powered_of_ready
    (hCoherent : l.Coherent r)
    (hReady : r.isReady) :
    l.powered := by
  unfold Sara.isReady Sara.wantsRegistration at hReady
  simp only [Bool.and_eq_true] at hReady
  exact hCoherent.attach hReady.1.1

------------------------------------------------------------
-- Coherence of Moves
------------------------------------------------------------

/- To drop the link detaches the driver, if there is a link. -/
theorem Drops.agreed
    {reason : DropReason}
    (hDrop : Drops reason l talk l')
    (hAgreed : l.Agreed told) :
    l'.Agreed (talk.foldl Sara.heed told) := by
  cases hDrop with
  | nothing hNone => exact hAgreed
  | drop hSome answer =>
      have hTold :
          List.foldl Sara.heed told
              ((if l.connected ∧ reason ≠ .reset then
                  [⟨.closeCloud, ()⟩]
                else
                  []) ++
                [l.shows .disconnecting, ⟨.disconnect, answer⟩,
                  l.shows .disconnected,
                  l.tells .disconnected]) =
            (told.1.disconnect, told.2) := by
        split <;> rfl
      rw [hTold]
      intro hTruthful
      exact
        (hAgreed hTruthful).disconnect.congr rfl rfl rfl
          nofun nofun

/- To power up only adds power. -/
theorem PowersUp.agreed
    {powered : Except Fault Unit}
    (hPower : PowersUp l talk powered l')
    (hAgreed : l.Agreed told) :
    l'.Agreed (talk.foldl Sara.heed told) := by
  cases hPower with
  | already hOn => exact hAgreed
  | refused hOff fault => exact hAgreed
  | done hOff =>
      intro hTruthful
      have hCoherent := hAgreed hTruthful
      exact
        { technology := hCoherent.technology
          suppressed := hCoherent.suppressed
          attach _ := rfl
          connecting _ := rfl
          connected _ := rfl }

/- An attempt asks for an attach only behind power. -/
theorem Attempts.agreed
    (hAttempt : Attempts l now talk l')
    (hAgreed : l.Agreed told) :
    l'.Agreed (talk.foldl Sara.heed told) := by
  have hArmed : (l.armed now).Agreed told := fun hTruthful =>
    (hAgreed hTruthful).congr rfl rfl rfl id id
  cases hAttempt with
  | unknown hPower =>
      rw [List.foldl_append]
      intro hTruthful
      have hCoherent := hPower.agreed hArmed hTruthful
      unfold listenForCredentials
      split
      · exact hCoherent.congr rfl rfl rfl id id
      · exact hCoherent.congr rfl rfl rfl id id
  | unpowered hPower =>
      rw [List.foldl_append]
      intro hTruthful
      exact
        (hPower.agreed hArmed hTruthful).congr rfl rfl rfl id id
  | held hPower hHeld =>
      rw [List.foldl_append]
      intro hTruthful
      exact
        (hPower.agreed hArmed hTruthful).congr rfl rfl rfl id id
  | refused hPower hFree fault =>
      rw [List.foldl_append]
      intro hTruthful
      exact
        (hPower.agreed hArmed hTruthful).congr rfl rfl rfl
          nofun id
  | begun hPower hFree =>
      rw [List.foldl_append]
      intro hTruthful
      have hCoherent := hPower.agreed hArmed hTruthful
      exact
        { technology := hCoherent.technology
          suppressed := hCoherent.suppressed
          attach _ := hPower.powered
          connecting _ := hPower.powered
          connected _ := hPower.powered }

/- Every move keeps the accounts in agreement. -/
theorem Move.agreed
    (hMove : Move l talk l')
    (hAgreed : l.Agreed told) :
    l'.Agreed (talk.foldl Sara.heed told) := by
  cases hMove with
  | request hRequest =>
      exact fun hTruthful =>
        (hAgreed hTruthful).congr rfl rfl rfl id id
  | suppress hNew =>
      intro hTruthful
      have hCoherent := hAgreed hTruthful
      exact { hCoherent with suppressed := rfl }
  | powerUp hPower => exact hPower.agreed hAgreed
  | powerDown hOn hDown =>
      intro hTruthful
      have hCoherent := (hAgreed hTruthful).disconnect
      exact
        { technology := hCoherent.technology
          suppressed := hCoherent.suppressed
          attach := nofun
          connecting hUnderWay := absurd hUnderWay hDown.1
          connected hUp := absurd hUp hDown.2 }
  | powerStays hOn hDown fault =>
      exact fun hTruthful => (hAgreed hTruthful).disconnect
  | drop hDrop => exact hDrop.agreed hAgreed
  | tick hQuiet =>
      exact fun hTruthful =>
        (hAgreed hTruthful).congr rfl rfl rfl id id
  | tickStopped hStopped =>
      exact fun hTruthful =>
        (hAgreed hTruthful).congr rfl rfl rfl id id
  | tickStarted hStarted hDrop =>
      rw [List.foldl_cons, List.foldl_append]
      refine hDrop.agreed fun hTruthful => ?_
      exact (hAgreed hTruthful).congr rfl rfl rfl id id
  | look ready =>
      intro hTruthful
      exact hAgreed (Bool.and_eq_true_iff.mp hTruthful).1
  | arrive hNew =>
      intro hTruthful
      rcases Bool.and_eq_true_iff.mp hTruthful with
        ⟨hBefore, hReady⟩
      have hCoherent := hAgreed hBefore
      have hPowered :=
        hCoherent.powered_of_ready (beq_iff_eq.mp hReady).symm
      exact
        { technology := hCoherent.technology
          suppressed := hCoherent.suppressed
          attach _ := hPowered
          connecting := nofun
          connected _ := hPowered }
  | arriveAgain hOld =>
      intro hTruthful
      have hBefore := (Bool.and_eq_true_iff.mp hTruthful).1
      exact (hAgreed hBefore).congr rfl rfl rfl nofun id
  | lose hIdle hOld =>
      intro hTruthful
      have hBefore := (Bool.and_eq_true_iff.mp hTruthful).1
      exact (hAgreed hBefore).congr rfl rfl rfl id nofun
  | reset hUnderWay hDrop =>
      rw [List.foldl_cons, List.foldl_cons]
      refine hDrop.agreed fun hTruthful => ?_
      exact hAgreed (Bool.and_eq_true_iff.mp hTruthful).1
  | attempt hFree hAlone hAttempt =>
      rw [List.foldl_cons, List.foldl_cons, List.foldl_cons]
      refine hAttempt.agreed fun hTruthful => ?_
      exact hAgreed (Bool.and_eq_true_iff.mp hTruthful).1

------------------------------------------------------------
-- Links without Power
------------------------------------------------------------

/- An order by which the radio may be powered on. -/
def Order.Wakes : Order → Prop
| .on => True
| .connect => True
| _ => False

/- An operation that carries such an order out. -/
def Operation.Wakes : Operation → Prop
| .obey order => order.Wakes
| .obeyFor _ order => order.Wakes
| _ => False

/- A link without power, and hence neither up nor under way. -/
structure Dark
    (l : Link) : Prop where
  unpowered : l.powered = false
  down : ¬ l.connecting ∧ ¬ l.connected

theorem Coherent.dark
    (hCoherent : l.Coherent r)
    (hOff : l.powered = false) :
    l.Dark where
  unpowered := hOff
  down := by
    constructor
    · intro hUnderWay
      simp [hCoherent.connecting hUnderWay] at hOff
    · intro hUp
      simp [hCoherent.connected hUp] at hOff

theorem Drops.dark
    {reason : DropReason}
    (hDrop : Drops reason l talk l')
    (hDark : l.Dark) :
    l'.Dark :=
  ⟨hDrop.frame.2.trans hDark.unpowered, hDrop.down⟩

/- Requests to listen leave a dark link dark, -/
theorem dark_of_updateListening
    (hDark : l.Dark)
    (hUpdate :
      (l.updateListening now).Unfolds talk (some l')) :
    l'.Dark := by
  have hSame :
      Dark
        { l with listening := (l.listening.update now).2 } :=
    ⟨hDark.unpowered, hDark.down⟩
  unfold updateListening at hUpdate
  dsimp only at hUpdate
  split at hUpdate
  · next hStarted =>
      rw [Dialogue.unfolds_bind] at hUpdate
      rcases hUpdate with
        ⟨⟨dropped, l₁⟩, talk, _, rfl, hDrop, hUpdate⟩
      simp only [unfolds_announce, Dialogue.pure_eq_done,
        Dialogue.unfolds_done] at hUpdate
      rcases hUpdate with ⟨_, rfl, rfl, rfl⟩
      exact (drops_of_unfolds hDrop).dark hSame
  · next hStopped =>
      simp only [unfolds_announce, Dialogue.pure_eq_done,
        Dialogue.unfolds_done] at hUpdate
      rcases hUpdate with ⟨_, rfl, rfl, rfl⟩
      exact hSame
  · next hQuiet =>
      rcases (Dialogue.unfolds_done _ _ _).mp hUpdate with
        ⟨rfl, rfl⟩
      exact hSame

/- supervision does so too, -/
theorem dark_of_process
    (hDark : l.Dark)
    (hProcess : l.process.Unfolds talk (some l')) :
    l'.Dark := by
  unfold process at hProcess
  simp only [Talk.now, Dialogue.ask_bind, Dialogue.done_bind,
    Dialogue.unfolds_ask, Dialogue.unfolds_bind] at hProcess
  rcases hProcess with
    ⟨now, _, rfl, l₁, talk, more, rfl, hUpdate, hSupervise⟩
  have hStill := dark_of_updateListening hDark hUpdate
  rw [if_neg hStill.down.1, if_neg hStill.down.2] at hSupervise
  rcases (Dialogue.unfolds_done _ _ _).mp hSupervise with
    ⟨rfl, rfl⟩
  exact hStill

/- and so does any order but one to power up or to connect, -/
theorem dark_of_obey
    {order : Order}
    {result : Except Fault Unit}
    (hDark : l.Dark)
    (hQuiet : ¬ order.Wakes)
    (hObey : (l.obey order).Unfolds talk (some (result, l'))) :
    l'.Dark := by
  cases order with
  | on => exact absurd trivial hQuiet
  | off =>
      unfold obey off at hObey
      rw [if_pos (by simp [hDark.unpowered])] at hObey
      rcases (Dialogue.unfolds_done _ _ _).mp hObey with
        ⟨rfl, hSame⟩
      cases hSame
      exact hDark
  | connect => exact absurd trivial hQuiet
  | disconnect reason => exact (drops_of_unfolds hObey).dark hDark

/- so that every other operation leaves a dark link dark. -/
theorem dark_of_carryOut
    {operation : Operation}
    (hDark : l.Dark)
    (hQuiet : ¬ operation.Wakes)
    (hCarry : (carryOut operation l).Unfolds talk (some l')) :
    l'.Dark := by
  cases operation with
  | obey order =>
      rw [carryOut, Dialogue.unfolds_bind] at hCarry
      rcases hCarry with
        ⟨⟨result, l₁⟩, talk, _, rfl, hObey, hDone⟩
      rcases (Dialogue.unfolds_done _ _ _).mp hDone with
        ⟨rfl, rfl⟩
      exact dark_of_obey hDark hQuiet hObey
  | obeyFor technology order =>
      rw [carryOut, Dialogue.unfolds_bind] at hCarry
      rcases hCarry with
        ⟨⟨result, l₁⟩, talk, _, rfl, hObey, hDone⟩
      rcases (Dialogue.unfolds_done _ _ _).mp hDone with
        ⟨rfl, rfl⟩
      unfold obeyFor at hObey
      split at hObey
      · exact dark_of_obey hDark hQuiet hObey
      · rcases (Dialogue.unfolds_done _ _ _).mp hObey with
          ⟨rfl, hSame⟩
        cases hSame
        exact hDark
  | listen =>
      rcases (Dialogue.unfolds_done _ _ _).mp hCarry with
        ⟨rfl, rfl⟩
      exact ⟨hDark.unpowered, hDark.down⟩
  | stopListening =>
      rcases (Dialogue.unfolds_done _ _ _).mp hCarry with
        ⟨rfl, rfl⟩
      exact ⟨hDark.unpowered, hDark.down⟩
  | process => exact dark_of_process hDark hCarry
  | setUpdateMode technology enabled =>
      change (l.setUpdateModeFor technology enabled).Unfolds talk
        (some l') at hCarry
      unfold setUpdateModeFor setUpdateMode at hCarry
      simp only [Talk.suppressData, Dialogue.ask_bind,
        Dialogue.done_bind, Dialogue.pure_eq_done] at hCarry
      split at hCarry
      · split at hCarry
        · rcases (Dialogue.unfolds_done _ _ _).mp hCarry with
            ⟨rfl, rfl⟩
          exact hDark
        · rcases (Dialogue.unfolds_ask _ _ _ _).mp hCarry with
            ⟨_, _, rfl, hDone⟩
          rcases (Dialogue.unfolds_done _ _ _).mp hDone with
            ⟨rfl, rfl⟩
          exact ⟨hDark.unpowered, hDark.down⟩
      · rcases (Dialogue.unfolds_done _ _ _).mp hCarry with
          ⟨rfl, rfl⟩
        exact hDark

/- A link is without power once it was powered off. -/
theorem unpowered_of_off
    (hOff : l.off.Unfolds talk (some (.ok (), l'))) :
    l'.powered = false := by
  unfold off at hOff
  split at hOff
  · next hUnpowered =>
      rcases (Dialogue.unfolds_done _ _ _).mp hOff with
        ⟨rfl, hSame⟩
      cases hSame
      exact Bool.eq_false_iff.mpr hUnpowered
  · rw [Dialogue.unfolds_bind] at hOff
    rcases hOff with
      ⟨⟨dropped, l₁⟩, talk, more, rfl, hDrop, hOff⟩
    simp only [Talk.powerOff, Dialogue.ask_bind,
      Dialogue.done_bind, Dialogue.unfolds_ask] at hOff
    rcases hOff with ⟨answer, _, rfl, hOff⟩
    cases answer with
    | error fault =>
        rcases (Dialogue.unfolds_done _ _ _).mp hOff with
          ⟨rfl, hSame⟩
        cases hSame
    | ok done =>
        simp only [unfolds_announce, Dialogue.pure_eq_done,
          Dialogue.unfolds_done, Prod.mk.injEq] at hOff
        rcases hOff with ⟨_, rfl, rfl, _, rfl⟩
        rfl

end Link

------------------------------------------------------------
-- Coherent Devices
------------------------------------------------------------

namespace Device

variable
  {σ : Type}
  [Hardware σ]
  {d d' : Device σ}

/- The supervisor and the driver of a device agree. -/
def Coherent
    (d : Device σ) : Prop :=
  d.link.Coherent d.sara

omit [Hardware σ] in
theorem Coherent.of_same
    (hCoherent : d.Coherent)
    (hSame : d.SameLink d') :
    d'.Coherent := by
  unfold Coherent at hCoherent ⊢
  rw [hSame.link, hSame.sara]
  exact hCoherent

/- What the supervisor does, as it is told by its transcript. -/
theorem exists_unfolds_answerLink
    {α : Type}
    (talk : Link.Talk α)
    (d : Device σ) :
    ∃ told,
      talk.Unfolds told
          (some ((talk.run answerLink).run d).1) ∧
        (((talk.run answerLink).run d).2.sara, true) =
          told.foldl Sara.heed (d.sara, true) :=
  Dialogue.exists_unfolds_run (fun d => (d.sara, true))
    Sara.heed answerLink heed_answerLink talk d

/- Moves of the supervisor keep a device coherent, -/
omit [Hardware σ] in
theorem Coherent.moves
    {told : List Link.Exchange}
    {l' : Link}
    {r' : Sara}
    (hCoherent : d.Coherent)
    (hMoves : Link.Moves d.link told l')
    (hTold :
      (r', true) = told.foldl Sara.heed (d.sara, true)) :
    l'.Coherent r' := by
  have hStart : d.link.Agreed (d.sara, true) :=
    fun _ => hCoherent
  have hAgreed :=
    hMoves.keeps (fun _ _ _ _ => Link.Move.agreed) hStart
  rw [← hTold] at hAgreed
  exact hAgreed rfl

/- and so does every operation on the link. -/
theorem Coherent.operate
    (hCoherent : d.Coherent)
    (operation : Link.Operation) :
    ((withLink_ (Link.carryOut operation)).run d).2.Coherent := by
  rcases
    exists_unfolds_answerLink
      (Link.carryOut operation d.link) d with
    ⟨told, hCarried, hTold⟩
  rw [run_withLink_]
  exact
    hCoherent.moves (Link.moves_carryOut operation hCarried)
      hTold

/- The attach that is found out about changes nothing of it. -/
theorem Coherent.pollRegistration
    (hCoherent : d.Coherent) :
    (Device.pollRegistration.run d).2.Coherent := by
  have hSame := sameLink_pollRegistration d
  refine Coherent.of_same ?_ hSame
  exact { hCoherent with }

theorem Coherent.supervise
    (hCoherent : d.Coherent) :
    (Device.supervise.run d).2.Coherent := by
  rw [run_supervise]
  split
  · exact hCoherent.pollRegistration.operate .process
  · exact hCoherent.operate .process

/- A device stays coherent while the updater is answered. -/
theorem Coherent.answer
    {question : Update.Question}
    {answer : Update.Answer question}
    (hCoherent : d.Coherent)
    (hAnswer :
      (Device.answer question).run.run d = (.ok answer, d')) :
    d'.Coherent := by
  rcases operates_or_spares hAnswer with
    ⟨operation, rfl⟩ | hSame
  · exact hCoherent.operate operation
  · exact hCoherent.of_same hSame

/- After power-up nothing is powered, asked for or held down. -/
theorem coherent_boot
    {updatesEnabled : Bool}
    {base : Base σ}
    (hBoot : Device.boot updatesEnabled base = .ok d) :
    d.Coherent := by
  unfold Device.boot at hBoot
  dsimp only at hBoot
  cases hCache :
      Cache.atEnd Device.target (Hardware.flash base.hardware)
    with
  | error fault =>
      rw [hCache] at hBoot
      cases hBoot
  | ok cache =>
      rw [hCache] at hBoot
      cases hBoot
      exact ⟨rfl, rfl, nofun, nofun, nofun⟩

/- So every driven device is coherent. -/
theorem coherent_of_driven
    (hDriven : d.Driven) :
    d.Coherent := by
  induction hDriven with
  | boots hCloud hBoot => exact coherent_boot hBoot
  | answers hDriven hAnswer ih => exact ih.answer hAnswer
  | supervises hDriven ih => exact ih.supervise
  | operates hDriven operation ih => exact ih.operate operation
  | changes hDriven base hHeard ih => exact ih

/- A driver wants to register with power and unheld only. -/
omit [Hardware σ] in
theorem Coherent.wanted
    (hCoherent : d.Coherent)
    (hWanted : d.sara.wantsRegistration) :
    d.link.powered ∧ ¬ d.link.updateMode := by
  unfold Sara.wantsRegistration at hWanted
  rw [hCoherent.suppressed] at hWanted
  simp only [Bool.and_eq_true, Bool.not_eq_true'] at hWanted
  exact ⟨hCoherent.attach hWanted.1, by simp [hWanted.2]⟩

------------------------------------------------------------
-- Devices at Rest
------------------------------------------------------------

/-
  What may become of a device as long as it is not asked to
  power its modem on or to connect.
-/
inductive Rests
    (d : Device σ) : Device σ → Prop where
| stays :
    Rests d d
| supervises
    {d' : Device σ}
    (hRests : Rests d d') :
    Rests d (Device.supervise.run d').2
| operates
    {d' : Device σ}
    {operation : Link.Operation}
    (hRests : Rests d d')
    (hQuiet : ¬ operation.Wakes) :
    Rests d
      ((Device.withLink_ (Link.carryOut operation)).run d').2
| answers
    {d' d'' : Device σ}
    {question : Update.Question}
    {answer : Update.Answer question}
    (hRests : Rests d d')
    (hQuiet :
      ∀ operation ∈ operation? question, ¬ operation.Wakes)
    (hAnswer :
      (Device.answer question).run.run d' = (.ok answer, d'')) :
    Rests d d''
| changes
    {d' : Device σ}
    (hRests : Rests d d')
    (base : Base σ) :
    Rests d { d' with base := base }

/- A coherent device without power. -/
structure Dark
    (d : Device σ) : Prop where
  coherent : d.Coherent
  unpowered : d.link.powered = false

omit [Hardware σ] in
theorem Dark.of_same
    (hDark : d.Dark)
    (hSame : d.SameLink d') :
    d'.Dark where
  coherent := hDark.coherent.of_same hSame
  unpowered := by
    rw [hSame.link]
    exact hDark.unpowered

/- A dark device wants no attach. -/
omit [Hardware σ] in
theorem Dark.unwanted
    (hDark : d.Dark) :
    d.sara.wantsRegistration = false := by
  rw [Bool.eq_false_iff]
  intro hWanted
  have hPowered := (hDark.coherent.wanted hWanted).1
  simp [hDark.unpowered] at hPowered

/- An operation that does not wake it leaves a device dark. -/
theorem Dark.operate
    {operation : Link.Operation}
    (hDark : d.Dark)
    (hQuiet : ¬ operation.Wakes) :
    ((withLink_ (Link.carryOut operation)).run d).2.Dark where
  coherent := hDark.coherent.operate operation
  unpowered := by
    rcases
      exists_unfolds_answerLink
        (Link.carryOut operation d.link) d with
      ⟨told, hCarried, -⟩
    have hLink := hDark.coherent.dark hDark.unpowered
    rw [run_withLink_]
    exact
      (Link.dark_of_carryOut hLink hQuiet hCarried).unpowered

theorem Dark.supervise
    (hDark : d.Dark) :
    (Device.supervise.run d).2.Dark := by
  have hQuiet : ¬ Link.Operation.process.Wakes := id
  have hProcessed := hDark.operate hQuiet
  rw [run_supervise, if_neg (by simp [hDark.unwanted])]
  exact hProcessed

/- A dark device that rests stays dark. -/
theorem Dark.rests
    (hDark : d.Dark)
    (hRests : d.Rests d') :
    d'.Dark := by
  induction hRests with
  | stays => exact hDark
  | supervises hRests ih => exact ih.supervise
  | operates hRests hQuiet ih => exact ih.operate hQuiet
  | @answers d' d'' question answer hRests hQuiet hAnswer ih =>
      have hOperates := operates_of_answer hAnswer
      split at hOperates
      · next operation hSome =>
          subst hOperates
          exact ih.operate (hQuiet operation hSome)
      · exact ih.of_same hOperates
  | changes hRests base ih => exact ⟨ih.coherent, ih.unpowered⟩

/- A device is dark once its modem was powered off. -/
theorem Coherent.dark_of_off
    (hCoherent : d.Coherent)
    (hOff :
      (Device.order .cellular .off).run d = (.ok (), d')) :
    d'.Dark := by
  have hNext :
      ((withLink_
          (Link.carryOut (.obeyFor .cellular .off))).run d).2 =
        d' := by
    rw [← run_order, hOff]
  rcases
    exists_unfolds_answerLink
      (d.link.obeyFor .cellular .off) d with
    ⟨told, hObeyed, -⟩
  have hResult :
      (((d.link.obeyFor .cellular .off).run
          answerLink).run d).1.1 =
        .ok () :=
    congrArg Prod.fst hOff
  have hLink :
      (((d.link.obeyFor .cellular .off).run
          answerLink).run d).1.2 =
        d'.link :=
    congrArg (fun next => next.2.link) hOff
  have hDone :
      (((d.link.obeyFor .cellular .off).run
          answerLink).run d).1 =
        (.ok (), d'.link) :=
    Prod.ext hResult hLink
  have hCellular := hCoherent.technology
  unfold Link.obeyFor at hObeyed hDone
  rw [if_pos hCellular.symm] at hObeyed hDone
  rw [hDone] at hObeyed
  subst hNext
  exact
    ⟨hCoherent.operate _, Link.unpowered_of_off hObeyed⟩

------------------------------------------------------------
-- Supervision off the Channel
------------------------------------------------------------

/-
  In every state of a driven device the accounts of its parts
  agree: the data link is held down just in update mode, the
  driver wants to register only with power and out of update
  mode, and the link is up only with power. So supervision stays
  off the channel while update mode is on, and, once the modem
  was powered off, until it is asked to power up or to connect.
-/
theorem supervision_off_channel
    (hDriven : d.Driven) :
    d.sara.suppressed = d.link.updateMode ∧
      (d.sara.wantsRegistration →
        d.link.powered ∧ ¬ d.link.updateMode) ∧
        (d.link.connected → d.link.powered) ∧
          (d.link.updateMode →
            d.OffChannel (supervise.run d).2) ∧
            ∀ d' d'' : Device σ,
              (Device.order .cellular .off).run d =
                  (.ok (), d') →
                d'.Rests d'' →
                  d''.OffChannel (supervise.run d'').2 := by
  have hCoherent := coherent_of_driven hDriven
  refine
    ⟨hCoherent.suppressed, hCoherent.wanted,
      hCoherent.connected, ?_, ?_⟩
  · intro hMode
    apply offChannel_supervise
    rw [Bool.eq_false_iff]
    intro hWanted
    exact (hCoherent.wanted hWanted).2 hMode
  · intro d' d'' hOff hRests
    have hDark := (hCoherent.dark_of_off hOff).rests hRests
    exact offChannel_supervise hDark.unwanted

/- A board whose modem has lost its supply. -/
def supplyLost
    (d : Device Bench.Board) : Device Bench.Board :=
  d.setHardware (d.base.hardware.switchSupply false)

/-
  A device on a bench was asked to connect and wants to register
  when its modem loses the supply. Once the modem is powered
  off, supervision is off the channel.
-/
theorem supervision_off_channel_on_bench :
    ∃ d d' : Device Bench.Board,
      d.Driven ∧
        d.sara.wantsRegistration ∧
          (d.link.powered ∧ ¬ d.link.updateMode) ∧
            (Device.order .cellular .off).run d = (.ok (), d') ∧
              d'.OffChannel (supervise.run d').2 := by
  rcases exists_boot_benched with ⟨safeMode, hBoot⟩
  have hBegun : (begun safeMode).Driven := .boots rfl hBoot
  have hAsked := hBegun.operates (.obey .connect)
  rw [run_connect_begun] at hAsked
  have hLost : (supplyLost (asked safeMode)).Driven :=
    hAsked.changes _ rfl
  rcases supervision_off_channel hLost with
    ⟨-, hWanted, -, -, hOff⟩
  exact
    ⟨supplyLost (asked safeMode), _, hLost, rfl, hWanted rfl,
      rfl, hOff _ _ rfl .stays⟩

end Device

end Fota
