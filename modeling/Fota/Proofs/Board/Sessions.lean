import Fota.Bench.Board
import Fota.Proofs.Board.Driving
import Fota.Proofs.Link.Announcements
import Fota.Proofs.Modem.Exchanges
import Fota.Proofs.Storage.Slots

/-
  This file shows that the cloud of a device follows its link:
  from power-up on, the cloud takes the link to be up just when
  the link is connected, so that there is no session over a link
  that was given up.

  Key definitions include:
    * `Cloud.upAfter`
    * `Link.hearing`
    * `Device.Follows`

  The main statement is `Device.announcements_tell_link`.
-/

namespace Fota

------------------------------------------------------------
-- What the Cloud Hears
------------------------------------------------------------

namespace Cloud

/- Whether the link is taken to be up after an announcement. -/
def upAfter
    (up : Bool) : Announcement → Bool
| .connected => true
| .disconnected => false
| .poweredOff => false
| _ => up

theorem linkUp_hear
    (what : Announcement)
    (c : Cloud) :
    (c.hear what).linkUp = upAfter c.linkUp what := by
  cases what <;> rfl

end Cloud

namespace Link

variable
  {s s' start : Standing}
  {told what : List Announcement}

/- The cloud follows each step of the standing, -/
theorem Standing.Step.heard
    (hStep : s.Step what s') :
    what.foldl Cloud.upAfter s.up = s'.up := by
  cases hStep with
  | powerOff hOn hDown =>
      exact (Bool.eq_false_iff.mpr hDown.2).symm
  | _ =>
      rfl

/- and so it follows any steps. -/
theorem Standing.Steps.heard
    (hSteps : start.Steps told s) :
    told.foldl Cloud.upAfter start.up = s.up := by
  induction hSteps with
  | none =>
      rfl
  | more hSteps hStep ih =>
      rw [List.foldl_append, ih]
      exact hStep.heard

/- A link is supervised from its start. -/
theorem supervised_fresh
    (technology : Technology)
    (policy : Policy) :
    Supervised technology policy (fresh technology policy)
      [(fresh technology policy).shows .disconnected] :=
  .start
    ((Dialogue.unfolds_ask _ _ _ _).mpr ⟨(), [], rfl, .done _⟩)

/- What the cloud hears of an exchange of the supervisor. -/
def hearing
    (up : Bool)
    (exchange : Exchange) : Bool :=
  (story [exchange]).foldl Cloud.upAfter up

theorem foldl_hearing
    (up : Bool)
    (talk : List Exchange) :
    talk.foldl hearing up =
      (story talk).foldl Cloud.upAfter up := by
  induction talk generalizing up with
  | nil =>
      rfl
  | cons exchange talk ih =>
      rw [List.foldl_cons, ih, hearing, ← List.foldl_append,
        ← story_append]
      rfl

end Link

namespace Device

variable
  {σ : Type}
  [Hardware σ]
  {d d' : Device σ}

------------------------------------------------------------
-- Followed Links
------------------------------------------------------------

/- The link is supervised, and the cloud follows it. -/
structure Follows
    (d : Device σ) : Prop where
  supervised :
    ∃ log, Link.Supervised .cellular .standard d.link log
  linkUp : d.base.cloud.linkUp = d.link.connected

omit [Hardware σ] in
theorem Follows.of_same
    (hFollows : d.Follows)
    (hSame : d.SameLink d') :
    d'.Follows := by
  constructor
  · rw [hSame.link]
    exact hFollows.supervised
  · rw [hSame.link, hSame.linkUp]
    exact hFollows.linkUp

/- The cloud hears what the supervisor announces, no more. -/
theorem linkUp_answerLink
    (question : Link.Question)
    (d : Device σ) :
    ((answerLink question).run d).2.base.cloud.linkUp =
      Link.hearing d.base.cloud.linkUp
        ⟨question, ((answerLink question).run d).1⟩ := by
  cases question with
  | announce technology what =>
      exact Cloud.linkUp_hear what d.base.cloud
  | _ =>
      rfl

/- Each operation on the link is followed. -/
theorem Follows.operate
    (hFollows : d.Follows)
    (operation : Link.Operation) :
    ((withLink_ (Link.carryOut operation)).run d).2.Follows := by
  rcases hFollows with ⟨⟨log, hSupervised⟩, hUp⟩
  rcases
    Dialogue.exists_unfolds_run (fun d => d.base.cloud.linkUp)
      Link.hearing answerLink linkUp_answerLink
      (Link.carryOut operation d.link) d with
    ⟨talk, hCarried, hHeard⟩
  have hSteps :=
    (Link.moves_carryOut operation hCarried).steps .none
  rw [run_withLink_]
  refine ⟨⟨_, hSupervised.operate operation hCarried⟩, ?_⟩
  dsimp only at hHeard ⊢
  rw [hHeard, Link.foldl_hearing, hUp]
  exact hSteps.heard

theorem Follows.pollRegistration
    (hFollows : d.Follows) :
    (Device.pollRegistration.run d).2.Follows := by
  have hSame := sameLink_pollRegistration d
  constructor
  · rw [hSame.link]
    exact hFollows.supervised
  · rw [hSame.link, hSame.linkUp]
    exact hFollows.linkUp

theorem Follows.supervise
    (hFollows : d.Follows) :
    (Device.supervise.run d).2.Follows := by
  rw [run_supervise]
  split
  · exact hFollows.pollRegistration.operate .process
  · exact hFollows.operate .process

/- The link is followed while the updater is answered. -/
theorem Follows.answer
    {question : Update.Question}
    {answer : Update.Answer question}
    (hFollows : d.Follows)
    (hAnswer :
      (Device.answer question).run.run d = (.ok answer, d')) :
    d'.Follows := by
  rcases operates_or_spares hAnswer with
    ⟨operation, rfl⟩ | hSame
  · exact hFollows.operate operation
  · exact hFollows.of_same hSame

/- After power-up the link and what the cloud heard are fresh. -/
theorem follows_boot
    {updatesEnabled updatesAllowed : Bool}
    {base : Base σ}
    (hCloud : base.cloud = .fresh updatesAllowed)
    (hBoot : Device.boot updatesEnabled base = .ok d) :
    d.Follows := by
  unfold Device.boot at hBoot
  dsimp only at hBoot
  cases hCache :
      Cache.atEnd Device.target (Hardware.flash base.hardware)
    with
  | error fault =>
      rw [hCache] at hBoot
      cases hBoot
  | ok cache =>
      rw [hCache] at hBoot
      cases hBoot
      exact
        ⟨⟨_, Link.supervised_fresh .cellular .standard⟩,
          congrArg Cloud.linkUp hCloud⟩

theorem follows_of_driven
    (hDriven : d.Driven) :
    d.Follows := by
  induction hDriven with
  | boots hCloud hBoot =>
      exact follows_boot hCloud hBoot
  | answers hDriven hAnswer ih =>
      exact ih.answer hAnswer
  | supervises hDriven ih =>
      exact ih.supervise
  | operates hDriven operation ih =>
      exact ih.operate operation
  | changes hDriven base hHeard ih =>
      exact ih.of_same ⟨rfl, rfl, hHeard⟩

------------------------------------------------------------
-- Sessions
------------------------------------------------------------

/-
  The announcements of a supervised link tell its story without
  gaps or repeats. On a device the cloud follows them: it takes
  the link to be up just when the link is connected, and there
  is no session over a link that was given up.
-/
theorem announcements_tell_link :
    (∀ (technology : Technology) (policy : Link.Policy)
        (l : Link) (log : List Link.Exchange),
      Link.Supervised technology policy l log →
        Link.Tells (Link.story log) l.standing) ∧
      ∀ (σ : Type) [Hardware σ] (d : Device σ),
        d.Driven →
          (∃ log,
            Link.Supervised .cellular .standard d.link log) ∧
            d.base.cloud.linkUp = d.link.connected ∧
              (d.base.cloud.isConnected →
                d.link.connected) := by
  constructor
  · intro technology policy l log hSupervised
    exact Link.tells_of_supervised hSupervised
  · intro σ _ d hDriven
    have hFollows := follows_of_driven hDriven
    refine ⟨hFollows.supervised, hFollows.linkUp, ?_⟩
    intro hSession
    rw [← hFollows.linkUp]
    exact (Bool.and_eq_true_iff.mp hSession).2

/- What a modem that is attached answers to any command. -/
def attachedAnswer : String :=
  "+COPS: 0,0,\"A\",7\r\n+UPSND: 0,8,1\r\nOK\r\n"

/- The reply that the answer makes up. -/
def attachedReply : Reply :=
  ⟨.ok, ["+COPS: 0,0,\"A\",7", "+UPSND: 0,8,1"]⟩

/- A board on a bench, with such a modem, just powered up. -/
def benched : Base Bench.Board where
  hardware :=
    .fresh
      (.fresh (.ofNat 0) 1
        [⟨Text.utf8 "AT", true, none,
          [⟨0, Text.utf8 attachedAnswer⟩]⟩])
      16384 true none none
  mailbox := .empty
  cloud := .fresh true
  telemetry := .initial

/- The device once its firmware has begun to run. -/
def begun
    (safeMode : Bool) : Device Bench.Board where
  base :=
    { benched with
      telemetry :=
        benched.telemetry.showLink .cellular .disconnected }
  buffer := .empty
  link := .fresh .cellular .standard
  sara := .fresh Link.Policy.standard.powerOnTimeout
  cache := ⟨12288⟩
  safeMode := safeMode
  updatesEnabled := true
  lastRegistrationPoll := none

theorem exists_boot_benched :
    ∃ safeMode, Device.boot true benched = .ok (begun safeMode) := by
  have hCapacity :
      (Hardware.flash benched.hardware).capacity = 16384 :=
    List.length_replicate
  have hCache :
      Cache.atEnd Device.target
          (Hardware.flash benched.hardware) =
        .ok ⟨12288⟩ := by
    rw [Cache.atEnd, hCapacity, if_neg (by decide),
      Cache.place_eq_ok_iff, hCapacity]
    decide
  unfold Device.boot
  dsimp only
  rw [hCache]
  exact ⟨_, rfl⟩

/- The device once it is asked to connect. -/
def asked
    (safeMode : Bool) : Device Bench.Board where
  base :=
    { (begun safeMode).base with
      telemetry :=
        ((begun safeMode).base.telemetry.count
          .connectAttempt).showLink .cellular .connecting }
  buffer := .empty
  link :=
    { Link.attempting with
      watchdog := ⟨some (.ofNat 0), 300000⟩ }
  sara :=
    { (begun safeMode).sara with attachRequested := true }
  cache := ⟨12288⟩
  safeMode := safeMode
  updatesEnabled := true
  lastRegistrationPoll := none

theorem run_connect_begun
    (safeMode : Bool) :
    ((withLink_ (Link.carryOut (.obey .connect))).run
        (begun safeMode)).2 =
      asked safeMode :=
  rfl

/- The board after a command was written to its modem. -/
def written
    (command : Command)
    (b : Bench.Board) : Bench.Board :=
  (Port.write (Text.utf8 command.text) (Port.ready b).2).2

/- The board after the command was sent off as a line. -/
def sentOff
    (command : Command)
    (b : Bench.Board) : Bench.Board :=
  (Port.flush (Port.write Port.lineEnd (written command b)).2).2

/- The board after its modem has answered the command. -/
def answered
    (command : Command)
    (b : Bench.Board) : Bench.Board :=
  (Port.read Client.chunkSize
    (Port.ready (sentOff command b)).2).2

theorem exchange_attached
    {command : Command}
    {b : Bench.Board}
    (hHear :
      Client.hear (some command.text) (Text.utf8 attachedAnswer)
          ⟨.fresh, []⟩ =
        (some .ok, ⟨.fresh, attachedReply.lines⟩))
    (hFits : command.Fits)
    (hSome : Text.utf8 command.text ≠ [])
    (hIdle : (Port.ready b).1 = .ok false)
    (hText :
      (Port.write (Text.utf8 command.text) (Port.ready b).2).1 =
        .ok (Text.utf8 command.text).length)
    (hEnd :
      (Port.write Port.lineEnd (written command b)).1 =
        .ok Port.lineEnd.length)
    (hFlush :
      (Port.flush
        (Port.write Port.lineEnd (written command b)).2).1 =
        .ok ())
    (hReady : (Port.ready (sentOff command b)).1 = .ok true)
    (hRead :
      (Port.read Client.chunkSize
        (Port.ready (sentOff command b)).2).1 =
        .ok (Text.utf8 attachedAnswer)) :
    Client.exchange command.text command.patience .fresh b =
      (attachedReply, .fresh, answered command b) := by
  have hSend :
      Port.sendLine (Text.utf8 command.text) (Port.ready b).2 =
        (true, sentOff command b) :=
    Port.sendLine_of_took_all hSome (Prod.ext hText rfl)
      (Prod.ext hEnd rfl) (Prod.ext hFlush rfl)
  exact
    Client.exchange_of_single_read hHear hFits
      (Prod.ext hIdle rfl) hSend (Prod.ext hReady rfl)
      (Prod.ext hRead rfl) _

/- The device finds its modem attached. -/
theorem attach_asked
    (safeMode : Bool)
    (last : Option Instant) :
    ((attach.run send).run
      { asked safeMode with
        lastRegistrationPoll := last }).1 = true := by
  have hOperator :
      Client.exchange Command.operator.text
          Command.operator.patience .fresh benched.hardware =
        (attachedReply, .fresh,
          answered .operator benched.hardware) :=
    exchange_attached (by decide +kernel) (by decide)
      (by decide +kernel) rfl rfl rfl rfl rfl rfl
  have hContext :
      Client.exchange (Command.contextStatus 0).text
          (Command.contextStatus 0).patience .fresh
          (answered .operator benched.hardware) =
        (attachedReply, .fresh,
          answered (.contextStatus 0)
            (answered .operator benched.hardware)) :=
    exchange_attached (by decide +kernel) (by decide)
      (by decide +kernel) rfl rfl rfl rfl rfl rfl
  have hRegistered :
      attachedReply.lines.any (fun line =>
        (Report.registered? line).getD false) = true := by
    decide +kernel
  have hActive :
      attachedReply.lines.any (fun line =>
        (Report.contextActive? 0 line).getD false) = true := by
    decide +kernel
  unfold attach
  rw [Dialogue.run_bind, StateT.run_bind, Procedure.isRegistered,
    run_sendAny (by decide) hOperator, hRegistered]
  change
    (((Procedure.isContextActive dataProfile >>= _).run send).run
      _).1 = true
  rw [Dialogue.run_bind, StateT.run_bind,
    Procedure.isContextActive, dataProfile,
    run_sendAny (by decide) hContext, hActive]
  rfl

/- A round of supervision then finds the link up. -/
theorem connected_process
    {safeMode : Bool}
    {d : Device Bench.Board}
    (hSame :
      SameLink
        { asked safeMode with
          sara := (asked safeMode).sara.setRegistered true }
        d) :
    ((withLink_ Link.process).run d).2.link.connected := by
  rcases d with ⟨base, buffer, link, sara, cache, mode, on, last⟩
  rcases hSame with ⟨hLink, hSara, -⟩
  dsimp only at hLink hSara
  subst hLink hSara
  rfl

theorem connected_supervise_asked
    (safeMode : Bool) :
    (supervise.run (asked safeMode)).2.link.connected := by
  have hPoll :
      (asked safeMode).sara.wantsRegistration ∧
        (asked safeMode).IsPollDue :=
    ⟨rfl, nofun⟩
  have hSame := sameLink_pollRegistration (asked safeMode)
  dsimp only at hSame
  rw [attach_asked] at hSame
  rw [run_supervise, if_pos hPoll]
  exact connected_process hSame

/-
  The story of a link that has come up, and a device on a bench
  that was asked to connect and has found its modem attached.
-/
theorem announcements_tell_attached :
    Link.Supervised .cellular .standard Link.attached
        (Link.firstAttempt ++ Link.arrival) ∧
      Link.Tells [.poweredOn, .connecting, .connected]
        Link.attached.standing ∧
        ∃ d : Device Bench.Board,
          d.Driven ∧
            d.link.connected ∧ d.base.cloud.linkUp := by
  have hAttached :
      Link.Supervised .cellular .standard Link.attached
        (Link.firstAttempt ++ Link.arrival) :=
    Link.supervised_attempting.operate .process
      ((Dialogue.follow?_eq_some_iff _ _ _).mp rfl)
  rcases exists_boot_benched with ⟨safeMode, hBoot⟩
  have hBegun : (begun safeMode).Driven := .boots rfl hBoot
  have hAsked := hBegun.operates (.obey .connect)
  rw [run_connect_begun] at hAsked
  have hDriven := hAsked.supervises
  have hUp := connected_supervise_asked safeMode
  refine
    ⟨hAttached, announcements_tell_link.1 _ _ _ _ hAttached, _,
      hDriven, hUp, ?_⟩
  rw [(announcements_tell_link.2 _ _ hDriven).2.1]
  exact hUp

end Device

end Fota
