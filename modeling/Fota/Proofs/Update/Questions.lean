import Fota.Proofs.Dialogue.Courses
import Fota.Update.Tick

/-
  This file states what an updater may ask. For each stage it
  lists the questions of a tick that works on it; some of them
  depend on the updater, such as the record that is stored, the
  event that is published and the file that is downloaded.

  Key definitions include:
    * `Updater.offered?`
    * `Updater.withStage`
    * `Updater.MayAsk`

  The main statement is `Updater.work_asks`.
-/

namespace Fota

open Update (Question Talk)

attribute [simp]
  Talk.hearNotices Talk.takeCompletion Talk.clearCompletion
  Talk.takeDeactivation Talk.progress Talk.clearProgress
  Talk.networkOn Talk.networkOff Talk.networkConnect
  Talk.networkDisconnect Talk.isNetworkReady
  Talk.networkPower Talk.setUpdateMode
  Talk.isCloudConnected Talk.connectCloud
  Talk.disconnectCloud Talk.publish Talk.isFeatureEnabled
  Talk.now Talk.delay Talk.modemFamily Talk.areUpdatesEnabled
  Talk.isSafeMode Talk.resetToSafeMode Talk.resetToNormalMode
  Talk.load Talk.store Talk.count Talk.showStatus

------------------------------------------------------------
-- Procedures
------------------------------------------------------------

namespace Procedure

/- Sending a command asks for nothing else. -/
theorem asks_send
    {C : Command → Prop}
    {command : Command}
    (hCommand : C command) :
    (send command).Asks C := by
  unfold send Dialogue.query
  simp [hCommand]

/- A command for its outcome alone is all that is asked. -/
theorem asks_carryOut
    {C : Command → Prop}
    {command : Command}
    (hCommand : C command) :
    (carryOut command).Asks C := by
  unfold carryOut
  apply (asks_send hCommand).bind
  simp

/- Looking through the lines of a reply asks nothing more. -/
theorem asks_sendAny
    {C : Command → Prop}
    {command : Command}
    (matching : String → Bool)
    (hCommand : C command) :
    (sendAny command matching).Asks C := by
  unfold sendAny
  apply (asks_send hCommand).bind
  simp

/- Commands in order are all that is asked. -/
theorem asks_carryOutAll
    {C : Command → Prop}
    {commands : List Command}
    (hCommands : ∀ command ∈ commands, C command) :
    (carryOutAll commands).Asks C := by
  induction commands with
  | nil =>
      simp [carryOutAll]
  | cons command commands ih =>
      have hHead : C command :=
        hCommands command (List.mem_cons_self ..)
      have hTail : (carryOutAll commands).Asks C := by
        apply ih
        intro other hMem
        exact hCommands other (List.mem_cons_of_mem _ hMem)
      unfold carryOutAll
      apply (asks_carryOut hHead).bind
      simp [hTail]

/- Reading the version asks the modem to identify itself. -/
theorem asks_readVersion
    {C : Command → Prop}
    (hIdentify : C .identify) :
    readVersion.Asks C := by
  unfold readVersion
  apply (asks_send hIdentify).bind
  simp

/- Reading the last transfer error asks for it alone. -/
theorem asks_transferError
    {C : Command → Prop}
    (hError : C .transferError) :
    transferError.Asks C := by
  unfold transferError
  apply (asks_send hError).bind
  simp

end Procedure

namespace Update.Talk

/- A procedure with the modem asks its commands. -/
theorem asks_carryOut
    {α : Type}
    {K : Question → Prop}
    {procedure : Procedure α}
    (hAsks : procedure.Asks (fun command => K (.command command))) :
    (carryOut procedure).Asks K := by
  apply hAsks.run
  intro command hCommand
  simp [Talk.command, hCommand]

variable {K : Question → Prop}

theorem asks_probe
    (hAttention : K (.command .attention)) :
    (carryOut Procedure.probe).Asks K :=
  asks_carryOut (Procedure.asks_carryOut hAttention)

/- A plain command is asked if it fits its buffer. -/
theorem carryOut_carryOut
    (command : Command) :
    carryOut (Procedure.carryOut command) =
      if command.Fits then
        .ask (.command command) (fun reply => .done reply.outcome)
      else
        .done .error := by
  unfold carryOut Procedure.carryOut Procedure.send
  split <;> rfl

theorem asks_readVersion
    (hIdentify : K (.command .identify)) :
    (carryOut Procedure.readVersion).Asks K :=
  asks_carryOut (Procedure.asks_readVersion hIdentify)

end Update.Talk

------------------------------------------------------------
-- Questions of a Stage
------------------------------------------------------------

namespace Updater

/- The updater with its checkpoint at another stage. -/
def withStage
    (stage : Stage)
    (u : Updater) : Updater :=
  { u with checkpoint.stage := stage }

/- The updater that has read a version from the modem. -/
def withVersion
    (version : UInt32)
    (u : Updater) : Updater :=
  { u with checkpoint.installed := version }

/-
  The updater that is about to follow the path for a version,
  as it is stored; none when there is no such path.
-/
def offered?
    (version : UInt32)
    (u : Updater) : Option Updater :=
  ((u.withVersion version).selectPath version).map
    (fun next =>
      { next with
        checkpoint.availability := .available
        checkpoint.stage := .setupCloudConnect })

/- The updater that was told that there is no path. -/
def refused
    (version : UInt32)
    (u : Updater) : Updater :=
  { u.withVersion version with
    checkpoint.availability := .notAvailable }

/- Acting on a version is storing the run that is offered. -/
theorem qualifyVersion_eq
    (version : UInt32)
    (u : Updater) :
    u.qualifyVersion version =
      match u.offered? version with
      | none => return (u.refused version).moveTo .idle
      | some next => do
          next.persist
          if ← Talk.isSafeMode then
            return next.moveTo .setupCloudConnect
          else
            Talk.resetToSafeMode
            return next := by
  unfold qualifyVersion offered? refused withVersion
  cases hSelect : selectPath version
      { u with checkpoint.installed := version } with
  | none =>
      simp [hSelect]
  | some next =>
      simp [hSelect, checkpointAt]

/- The questions that store a checkpoint. -/
def storing
    (u : Updater) : Question :=
  .store (Record.encode u.checkpoint)

/- What an updater may ask in a tick that works on a stage. -/
def MayAsk
    (u : Updater)
    (entered : Bool)
    (stage : Stage)
    (question : Question) : Prop :=
  match stage with
  | .idle =>
      question ∈
        [.isSafeMode, .count .reset, .resetToNormalMode]
  | .qualifyFlags =>
      question ∈
        [.modemFamily, .isFeatureEnabled, .areUpdatesEnabled,
          .showStatus (.failed .qualifyFlags), .networkPower,
          .networkOn]
  | .qualifyModemOn =>
      question ∈
          [.networkPower, .command .identify, .isSafeMode,
            .count .reset, .resetToSafeMode] ∨
        ∃ version next, version ≠ 0 ∧
          u.offered? version = some next ∧
          question = next.storing
  | .qualifyRetry => False
  | .setupCloudConnect =>
      question ∈ [.isCloudConnected, .connectCloud]
  | .setupCloudConnecting => question = .isCloudConnected
  | .setupCloudConnected =>
      question ∈ [.isCloudConnected, .publish .started]
  | .downloadCloudDisconnect =>
      question ∈
        [.isCloudConnected, .disconnectCloud,
          .setUpdateMode true,
          .networkDisconnect .firmwareUpdate]
  | .downloadCellDisconnecting => question = .isNetworkReady
  | .downloadCellConnecting =>
      question ∈
        [.networkConnect, .command .operator,
          .command (.contextStatus dataProfile),
          .command (.mapContext dataProfile dataContext),
          .command (.activateContext dataProfile)]
  | .downloadHttpsSetup =>
      question ∈
        [.command (.clearSecurity u.server.security),
          .command .clearTransfer,
          .command (.transferHost u.server.host),
          .command (.transferPort u.server.port),
          .command (.transferSecurity u.server.security)]
  | .downloadReady =>
      question ∈
        [.takeDeactivation,
          .command (.mapContext dataProfile dataContext),
          .command (.activateContext dataProfile),
          .command .listImages,
          .command (.deleteImage u.checkpoint.path.file),
          .clearCompletion, .count .downloadAttempt,
          .command (.download u.checkpoint.path.file),
          .takeCompletion, .count .downloadFailure,
          .command .transferError]
  | .installCellDisconnecting =>
      question ∈
        [.networkDisconnect .firmwareUpdate, .isNetworkReady]
  | .installStarting =>
      if entered then
        question ∈
          [.command .identify, .clearProgress,
            .command .install]
      else
        question ∈
          [.command .attention,
            ((u.setStatus .updating).withStage
              .installWaiting).storing]
  | .installWaiting =>
      question ∈
        [.count .installPoll, .progress, .command .attention,
          .command .identify]
  | .finishedPowerOff =>
      question ∈
        [(u.withStage .finishedPowerOff).storing, .networkOff]
  | .finishedPoweringOff =>
      question ∈
        [.networkPower,
          (u.withStage .finishedCloudConnecting).storing]
  | .finishedCloudConnecting =>
      question ∈
        [.setUpdateMode false, .networkOn, .networkConnect,
          .connectCloud, .isCloudConnected]
  | .finishedCloudConnected =>
      question ∈
        [.isCloudConnected, .publish (resultEvent u.status)]
  | .finishedIdle =>
      question ∈
        [.setUpdateMode false,
          (u.withStage .finishedIdle).storing,
          .showStatus u.status]

variable
  {u : Updater}
  {now : Instant}
  {entered : Bool}

theorem idle_asks :
    u.idle.Asks (u.MayAsk entered .idle) := by
  simp [idle, MayAsk]

theorem qualifyFlags_asks :
    u.qualifyFlags.Asks (u.MayAsk entered .qualifyFlags) := by
  unfold qualifyFlags isWanted Updater.show
  simp [MayAsk]
  intro power hPower answer
  cases answer <;> simp

theorem qualifyVersion_asks
    {version : UInt32}
    (hVersion : version ≠ 0) :
    (u.qualifyVersion version).Asks
      (u.MayAsk entered .qualifyModemOn) := by
  rw [qualifyVersion_eq]
  cases hOffered : u.offered? version with
  | none =>
      simp
  | some next =>
      simp [MayAsk, persist, storing]
      exact ⟨version, hVersion, next, hOffered, rfl⟩

theorem qualifyModemOn_asks :
    (u.qualifyModemOn now).Asks
      (u.MayAsk entered .qualifyModemOn) := by
  have hIdentify :
      u.MayAsk entered .qualifyModemOn (.command .identify) := by
    simp [MayAsk]
  unfold qualifyModemOn
  simp only [Talk.networkPower, Dialogue.ask_bind,
    Dialogue.asks_ask, Dialogue.done_bind]
  refine ⟨by simp [MayAsk], ?_⟩
  intro power
  rw [Dialogue.asks_ite]
  constructor
  · intro hOn
    apply (Talk.asks_readVersion hIdentify).bind
    intro version
    rw [Dialogue.asks_ite]
    constructor
    · intro hUnread
      simp
    · intro hVersion
      exact qualifyVersion_asks hVersion
  · intro hOff
    simp

theorem setupCloudConnect_asks :
    u.setupCloudConnect.Asks
      (u.MayAsk entered .setupCloudConnect) := by
  simp [setupCloudConnect, MayAsk]

theorem setupCloudConnecting_asks :
    (u.setupCloudConnecting now).Asks
      (u.MayAsk entered .setupCloudConnecting) := by
  simp [setupCloudConnecting, MayAsk]

theorem setupCloudConnected_asks :
    (u.setupCloudConnected now).Asks
      (u.MayAsk entered .setupCloudConnected) := by
  simp [setupCloudConnected, MayAsk]

theorem downloadCloudDisconnect_asks :
    (u.downloadCloudDisconnect now entered).Asks
      (u.MayAsk entered .downloadCloudDisconnect) := by
  simp [downloadCloudDisconnect, takeModem, MayAsk]

theorem downloadCellDisconnecting_asks :
    (u.downloadCellDisconnecting now).Asks
      (u.MayAsk entered .downloadCellDisconnecting) := by
  simp [downloadCellDisconnecting, MayAsk]

/- Activating packet data asks for nothing but that. -/
theorem activateData_asks
    {K : Question → Prop}
    (hMap : K (.command (.mapContext dataProfile dataContext)))
    (hActivate : K (.command (.activateContext dataProfile))) :
    activateData.Asks K := by
  apply Talk.asks_carryOut
  apply Procedure.asks_carryOutAll
  simp [hMap, hActivate]

/- Looking for packet data asks the modem alone. -/
theorem hasData_asks :
    hasData.Asks (u.MayAsk entered .downloadCellConnecting) := by
  unfold hasData
  apply Dialogue.Asks.bind
  · apply Talk.asks_carryOut
    apply Procedure.asks_sendAny
    simp [MayAsk]
  · intro registered
    rw [Dialogue.asks_ite]
    refine ⟨?_, by simp⟩
    intro hRegistered
    apply Dialogue.Asks.bind
    · apply Talk.asks_carryOut
      apply Procedure.asks_sendAny
      simp [MayAsk]
    · intro active
      rw [Dialogue.asks_ite]
      refine ⟨by simp, ?_⟩
      intro hInactive
      apply Dialogue.Asks.bind
      · apply activateData_asks <;> simp [MayAsk]
      · simp

theorem downloadCellConnecting_asks :
    (u.downloadCellConnecting now entered).Asks
      (u.MayAsk entered .downloadCellConnecting) := by
  have hData :
      hasData.Asks (u.MayAsk entered .downloadCellConnecting) :=
    hasData_asks
  unfold downloadCellConnecting
  simp [MayAsk, hData]

theorem downloadHttpsSetup_asks :
    (u.downloadHttpsSetup now).Asks
      (u.MayAsk entered .downloadHttpsSetup) := by
  unfold downloadHttpsSetup
  apply Dialogue.Asks.bind
  · apply Talk.asks_carryOut
    apply Procedure.asks_carryOutAll
    simp [MayAsk]
  · simp

/- A failed attempt asks for the last transfer error. -/
theorem attemptFailed_asks
    {K : Question → Prop}
    (hCount : K (.count .downloadFailure))
    (hError : K (.command .transferError)) :
    u.attemptFailed.Asks K := by
  have hProcedure :
      (Talk.carryOut Procedure.transferError).Asks K :=
    Talk.asks_carryOut (Procedure.asks_transferError hError)
  unfold attemptFailed
  simp [hCount, hProcedure]

/- Restoring packet data asks whether it was lost. -/
theorem restoreData_asks
    {K : Question → Prop}
    (hTake : K .takeDeactivation)
    (hMap : K (.command (.mapContext dataProfile dataContext)))
    (hActivate : K (.command (.activateContext dataProfile))) :
    restoreData.Asks K := by
  have hData : activateData.Asks K :=
    activateData_asks hMap hActivate
  unfold restoreData
  simp [hTake, hData]

/- Deleting a stale image asks whether there is one. -/
theorem deleteStaleImage_asks
    {K : Question → Prop}
    {file : FileName}
    (hList : K (.command .listImages))
    (hDelete : K (.command (.deleteImage file))) :
    (deleteStaleImage file).Asks K := by
  unfold deleteStaleImage
  apply Dialogue.Asks.bind
  · apply Talk.asks_carryOut
    exact Procedure.asks_sendAny _ hList
  · intro found
    rw [Dialogue.asks_ite]
    refine ⟨?_, by simp⟩
    intro hFound
    apply Dialogue.Asks.bind
    · apply Talk.asks_carryOut
      exact Procedure.asks_carryOut hDelete
    · simp

/- Beginning an attempt asks for what stands before it. -/
theorem beginAttempt_asks :
    (u.beginAttempt now).Asks
      (u.MayAsk entered .downloadReady) := by
  have hRestore :
      restoreData.Asks (u.MayAsk entered .downloadReady) := by
    apply restoreData_asks <;> simp [MayAsk]
  have hDelete :
      (deleteStaleImage u.checkpoint.path.file).Asks
        (u.MayAsk entered .downloadReady) := by
    apply deleteStaleImage_asks <;> simp [MayAsk]
  have hDownload :
      (Talk.carryOut
        (Procedure.startDownload
          u.checkpoint.path.file)).Asks
        (u.MayAsk entered .downloadReady) := by
    apply Talk.asks_carryOut
    apply Procedure.asks_carryOut
    simp [MayAsk]
  have hFailed :
      u.attemptFailed.Asks (u.MayAsk entered .downloadReady) := by
    apply attemptFailed_asks <;> simp [MayAsk]
  unfold beginAttempt
  apply hRestore.bind
  intro _
  apply hDelete.bind
  intro _
  simp only [Talk.clearCompletion, Talk.count,
    Dialogue.ask_bind, Dialogue.done_bind, Dialogue.asks_ask]
  refine ⟨by simp [MayAsk], ?_⟩
  intro _
  refine ⟨by simp [MayAsk], ?_⟩
  intro _
  apply hDownload.bind
  intro outcome
  rw [Dialogue.asks_ite]
  exact ⟨fun _ => by simp, fun _ => hFailed⟩

theorem downloadReady_asks :
    (u.downloadReady now).Asks
      (u.MayAsk entered .downloadReady) := by
  have hFailed :
      u.attemptFailed.Asks (u.MayAsk entered .downloadReady) := by
    apply attemptFailed_asks <;> simp [MayAsk]
  unfold downloadReady
  cases hPending : u.time.pendingSince with
  | none =>
      exact beginAttempt_asks
  | some since =>
      simp only [Talk.takeCompletion, Dialogue.ask_bind,
        Dialogue.done_bind, Dialogue.asks_ask]
      refine ⟨by simp [MayAsk], ?_⟩
      intro completion
      cases completion <;> simp [hFailed]

theorem installCellDisconnecting_asks :
    (u.installCellDisconnecting now entered).Asks
      (u.MayAsk entered .installCellDisconnecting) := by
  simp [installCellDisconnecting, MayAsk]

theorem installStarting_asks :
    (u.installStarting now entered).Asks
      (u.MayAsk entered .installStarting) := by
  cases entered with
  | true =>
      unfold installStarting beginInstall
      rw [if_pos rfl]
      apply Dialogue.Asks.bind
      · apply Talk.asks_readVersion
        simp [MayAsk]
      · intro version
        simp only [Talk.clearProgress, Dialogue.ask_bind,
          Dialogue.done_bind, Dialogue.asks_ask]
        refine ⟨by simp [MayAsk], ?_⟩
        intro _
        apply Dialogue.Asks.bind
        · apply Talk.asks_carryOut
          apply Procedure.asks_carryOut
          simp [MayAsk]
        · simp
  | false =>
      unfold installStarting
      rw [if_neg Bool.false_ne_true]
      apply Dialogue.Asks.bind
      · apply Talk.asks_probe
        simp [MayAsk]
      · simp [checkpointAt, persist, MayAsk, storing,
          withStage]

/- Looking whether the modem is back asks it alone. -/
theorem probeVersion_asks
    {K : Question → Prop}
    (hAttention : K (.command .attention))
    (hIdentify : K (.command .identify)) :
    probeVersion.Asks K := by
  unfold probeVersion
  apply (Talk.asks_probe hAttention).bind
  simp [Talk.asks_readVersion hIdentify]

theorem installWaiting_asks :
    (u.installWaiting now entered).Asks
      (u.MayAsk entered .installWaiting) := by
  have hProbe :
      probeVersion.Asks (u.MayAsk entered .installWaiting) := by
    apply probeVersion_asks <;> simp [MayAsk]
  unfold installWaiting pollInstall
  simp only [Talk.count, Talk.progress, Dialogue.asks_ite,
    Dialogue.ask_bind, Dialogue.done_bind, Dialogue.asks_ask]
  refine ⟨fun _ => by simp, ?_⟩
  intro hLater
  refine ⟨by simp [MayAsk], ?_⟩
  intro _
  refine ⟨by simp [MayAsk], ?_⟩
  intro progress
  apply hProbe.bind
  intro version
  cases judge version (isComplete progress) u.checkpoint <;>
    simp

theorem finishedPowerOff_asks :
    u.finishedPowerOff.Asks
      (u.MayAsk entered .finishedPowerOff) := by
  simp [finishedPowerOff, checkpointAt, persist, MayAsk,
    storing, withStage]

theorem finishedPoweringOff_asks :
    (u.finishedPoweringOff now).Asks
      (u.MayAsk entered .finishedPoweringOff) := by
  simp [finishedPoweringOff, checkpointAt, persist, MayAsk,
    storing, withStage]

theorem finishedCloudConnecting_asks :
    (u.finishedCloudConnecting now entered).Asks
      (u.MayAsk entered .finishedCloudConnecting) := by
  simp [finishedCloudConnecting, giveModemBack, MayAsk]

theorem finishedCloudConnected_asks :
    u.finishedCloudConnected.Asks
      (u.MayAsk entered .finishedCloudConnected) := by
  simp [finishedCloudConnected, MayAsk]

theorem finishedIdle_asks :
    u.finishedIdle.Asks (u.MayAsk entered .finishedIdle) := by
  simp [finishedIdle, checkpointAt, persist, Updater.show,
    MayAsk, storing, withStage, status]

/- A tick that works on a stage asks what the stage may ask. -/
theorem work_asks :
    (u.work now entered).Asks (u.MayAsk entered u.stage) := by
  unfold work
  cases u.stage with
  | idle => exact idle_asks
  | qualifyFlags => exact qualifyFlags_asks
  | qualifyModemOn => exact qualifyModemOn_asks
  | qualifyRetry => simp
  | setupCloudConnect => exact setupCloudConnect_asks
  | setupCloudConnecting => exact setupCloudConnecting_asks
  | setupCloudConnected => exact setupCloudConnected_asks
  | downloadCloudDisconnect =>
      exact downloadCloudDisconnect_asks
  | downloadCellDisconnecting =>
      exact downloadCellDisconnecting_asks
  | downloadCellConnecting =>
      exact downloadCellConnecting_asks
  | downloadHttpsSetup => exact downloadHttpsSetup_asks
  | downloadReady => exact downloadReady_asks
  | installCellDisconnecting =>
      exact installCellDisconnecting_asks
  | installStarting => exact installStarting_asks
  | installWaiting => exact installWaiting_asks
  | finishedPowerOff => exact finishedPowerOff_asks
  | finishedPoweringOff => exact finishedPoweringOff_asks
  | finishedCloudConnecting =>
      exact finishedCloudConnecting_asks
  | finishedCloudConnected =>
      exact finishedCloudConnected_asks
  | finishedIdle => exact finishedIdle_asks

end Updater

end Fota
