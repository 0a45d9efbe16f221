import Fota.Update.Download
import Fota.Update.Finish
import Fota.Update.Install
import Fota.Update.Qualify

/-
  This file defines a tick of the updater: one look at the
  notices and the clock and, unless a cooldown is under way, one
  step of the stage that the run is in.

  Key definitions include:
    * `Updater.work`
    * `Updater.tick`
-/

namespace Fota

open Update (Talk)

namespace Updater

------------------------------------------------------------
-- Ticks
------------------------------------------------------------

/- Work on the stage; `entered` says that this is its first tick. -/
def work
    (now : Instant)
    (entered : Bool)
    (u : Updater) : Talk Updater :=
  match u.stage with
  | .idle => u.idle
  | .qualifyFlags => u.qualifyFlags
  | .qualifyModemOn => u.qualifyModemOn now
  | .qualifyRetry => return u.qualifyRetry now
  | .setupCloudConnect => u.setupCloudConnect
  | .setupCloudConnecting => u.setupCloudConnecting now
  | .setupCloudConnected => u.setupCloudConnected now
  | .downloadCloudDisconnect =>
      u.downloadCloudDisconnect now entered
  | .downloadCellDisconnecting =>
      u.downloadCellDisconnecting now
  | .downloadCellConnecting =>
      u.downloadCellConnecting now entered
  | .downloadHttpsSetup => u.downloadHttpsSetup now
  | .downloadReady => u.downloadReady now
  | .installCellDisconnecting =>
      u.installCellDisconnecting now entered
  | .installStarting => u.installStarting now entered
  | .installWaiting => u.installWaiting now entered
  | .finishedPowerOff => u.finishedPowerOff
  | .finishedPoweringOff => u.finishedPoweringOff now
  | .finishedCloudConnecting =>
      u.finishedCloudConnecting now entered
  | .finishedCloudConnected => u.finishedCloudConnected
  | .finishedIdle => u.finishedIdle

/- Note the first tick of the stage and work on it. -/
def enterAndWork
    (now : Instant)
    (u : Updater) : Talk Updater :=
  { u with time := u.time.enter now }.work now
    u.time.enteredAt.isNone

/- One tick of an updater that was started. -/
def tick
    (u : Updater) : Talk (Except Fault Updater) := do
  if ¬ u.started then
    return .error .invalidState
  else
    Talk.hearNotices
    let now ← Talk.now
    let u :=
      { u with cooldown := Cooldown.update now u.cooldown }
    if u.cooldown.isSome then
      return .ok u
    else
      return .ok (← u.enterAndWork now)

end Updater

end Fota
