import Fota.Update.Updater

/-
  This file defines the stages in which an update run powers the
  modem off and on again, gives it back and publishes how the
  run ended.

  Key definitions include:
    * `Updater.finishedPowerOff`
    * `Updater.finishedPoweringOff`
    * `Updater.finishedCloudConnecting`
    * `Updater.finishedCloudConnected`
    * `Updater.finishedIdle`
-/

namespace Fota

open Update (Talk)

namespace Updater

------------------------------------------------------------
-- Power Cycle
------------------------------------------------------------

/- Power the modem off. -/
def finishedPowerOff
    (u : Updater) : Talk Updater := do
  let u ← u.checkpointAt .finishedPowerOff
  let _ ← Talk.networkOff
  return u.moveTo .finishedPoweringOff

/- Wait for the modem to be off. -/
def finishedPoweringOff
    (now : Instant)
    (u : Updater) : Talk Updater := do
  if (← Talk.networkPower) = .off then
    let u ← u.checkpointAt .finishedCloudConnecting
    return u.moveTo .finishedCloudConnecting
  else if u.TimedOut now u.policy.powerOffTimeout then
    return u.fail .powerOffTimeout .finishedIdle
  else
    return u

------------------------------------------------------------
-- Report
------------------------------------------------------------

/- Give the modem back, power it on and ask for a session. -/
def giveModemBack : Talk Unit := do
  Talk.setUpdateMode false
  let _ ← Talk.networkOn
  let _ ← Talk.networkConnect
  Talk.connectCloud

/- Wait for the session; a timeout costs a power cycle. -/
def finishedCloudConnecting
    (now : Instant)
    (entered : Bool)
    (u : Updater) : Talk Updater := do
  if entered then
    giveModemBack
  if ← Talk.isCloudConnected then
    return u.moveTo .finishedCloudConnected
  else if u.TimedOut now u.policy.cloudConnectTimeout then
    let count := Retries.more u.retries.cloudConnectExit
    let u := { u with retries.cloudConnectExit := count }
    if u.policy.cloudConnectExitRetryMax < count then
      return u.fail .cloudConnectOnExitTimeout .finishedIdle
    else
      return u.moveTo .finishedPowerOff
  else
    return u

/- The event that tells how a run ended. -/
def resultEvent
    (status : Status) : Update.Event :=
  if status = .success then .success else .failed

/- Publish how the run ended. -/
def finishedCloudConnected
    (u : Updater) : Talk Updater := do
  if ← Talk.publish (resultEvent u.status) then
    return u.moveTo .finishedIdle
  else
    return u.fail .publishResult .finishedIdle

/- Give the modem back, store and show the status, and rest. -/
def finishedIdle
    (u : Updater) : Talk Updater := do
  Talk.setUpdateMode false
  let u ← u.checkpointAt .finishedIdle
  let u ← u.show u.status
  let u :=
    { u with
      checkpoint.availability := .unknown
      checkpoint.ownPath := false }
  return u.moveTo .idle

end Updater

end Fota
