import Fota.Update.Updater

/-
  This file defines the stages in which an update run announces
  itself, takes the modem and downloads the image.

  Key definitions include:
    * `Updater.setupCloudConnect`
    * `Updater.setupCloudConnecting`
    * `Updater.setupCloudConnected`
    * `Updater.downloadCloudDisconnect`
    * `Updater.downloadCellDisconnecting`
    * `Updater.downloadCellConnecting`
    * `Updater.downloadHttpsSetup`
    * `Updater.downloadReady`
-/

namespace Fota

open Update (Talk)

namespace Updater

------------------------------------------------------------
-- Packet Data
------------------------------------------------------------

/- The profile that the update uses for packet data. -/
def dataProfile : UInt8 :=
  0

/- The context that the update uses for packet data. -/
def dataContext : UInt8 :=
  1

/- Activate packet data for the update. -/
def activateData : Talk Outcome :=
  Talk.carryOut
    (Procedure.activateContext dataProfile dataContext)

------------------------------------------------------------
-- Cloud Session
------------------------------------------------------------

/- Ask for a session with the cloud, unless there is one. -/
def setupCloudConnect
    (u : Updater) : Talk Updater := do
  if ¬ (← Talk.isCloudConnected) then
    Talk.connectCloud
  return u.moveTo .setupCloudConnecting

/- Wait for the session. -/
def setupCloudConnecting
    (now : Instant)
    (u : Updater) : Talk Updater := do
  if ← Talk.isCloudConnected then
    return u.moveTo .setupCloudConnected
  else if u.TimedOut now u.policy.cloudConnectTimeout then
    return u.fail .cloudConnectOnEntryTimeout .finishedIdle
  else
    return u

/- Publish that the run has started, with some retries. -/
def setupCloudConnected
    (now : Instant)
    (u : Updater) : Talk Updater := do
  if ← Talk.publish .started then
    let u := u.setStatus .downloading
    let u := u.cool now u.policy.publishStartCooldown
    return u.moveTo .downloadCloudDisconnect
  else
    let count := Retries.more u.retries.publishStart
    let u := { u with retries.publishStart := count }
    if u.policy.publishStartRetryMax < count then
      return u.fail .publishStart .finishedIdle
    else
      return u

------------------------------------------------------------
-- Taking the Modem
------------------------------------------------------------

/- Take the modem and drop its link. -/
def takeModem
    (now : Instant)
    (u : Updater) : Talk Updater := do
  Talk.setUpdateMode true
  let _ ← Talk.networkDisconnect
  let u := u.cool now u.policy.cloudDisconnectCooldown
  return u.moveTo .downloadCellDisconnecting

/- Let the session end, in time or not, and take the modem. -/
def downloadCloudDisconnect
    (now : Instant)
    (entered : Bool)
    (u : Updater) : Talk Updater := do
  if entered then
    if ← Talk.isCloudConnected then
      Talk.disconnectCloud
  if ← Talk.isCloudConnected then
    if u.TimedOut now u.policy.cloudDisconnectTimeout then
      u.takeModem now
    else
      return u
  else
    u.takeModem now

/- Wait for the link to drop. -/
def downloadCellDisconnecting
    (now : Instant)
    (u : Updater) : Talk Updater := do
  if ¬ (← Talk.isNetworkReady) then
    return u.moveTo .downloadCellConnecting
  else if
      u.TimedOut now u.policy.cellularDisconnectTimeout then
    return u.fail .setupCellularDisconnectTimeout .finishedIdle
  else
    return u

/- Packet data is active, or can be activated. -/
def hasData : Talk Bool := do
  if ← Talk.carryOut Procedure.isRegistered then
    if ← Talk.carryOut
        (Procedure.isContextActive dataProfile) then
      return true
    else
      return (← activateData).isOk
  else
    return false

/- Wait for packet data, with a pause between two looks. -/
def downloadCellConnecting
    (now : Instant)
    (entered : Bool)
    (u : Updater) : Talk Updater := do
  if entered then
    let _ ← Talk.networkConnect
  if ← hasData then
    return u.moveTo .downloadHttpsSetup
  else if u.TimedOut now u.policy.cellularConnectTimeout then
    return u.fail .cellularConnectTimeout .finishedIdle
  else
    return u.cool now u.policy.cellularConnectPoll

/- Point the modem at the server, with some retries. -/
def downloadHttpsSetup
    (now : Instant)
    (u : Updater) : Talk Updater := do
  let outcome ←
    Talk.carryOut (Procedure.setUpTransfer u.server)
  if outcome.isOk then
    return u.moveTo .downloadReady
  else
    let count := Retries.more u.retries.httpsSetup
    let u := { u with retries.httpsSetup := count }
    if u.policy.httpsSetupRetryMax < count then
      return u.fail .httpsSetup .finishedIdle
    else
      return u.cool now u.policy.httpsSetupRetryCooldown

------------------------------------------------------------
-- Download
------------------------------------------------------------

/- An attempt has failed: try again, or give up. -/
def attemptFailed
    (u : Updater) : Talk Updater := do
  Talk.count .downloadFailure
  let _ ← Talk.carryOut Procedure.transferError
  let count := Retries.more u.retries.download
  let u :=
    { u with
      time.pendingSince := none
      retries.download := count }
  if u.policy.downloadAttemptsMax ≤ count then
    return u.fail .downloadRetryMax .finishedIdle
  else
    return u

/- Activate packet data again if it was reported as lost. -/
def restoreData : Talk Unit := do
  if (← Talk.takeDeactivation) = some dataContext then
    let _ ← activateData

/- Delete an image of the same name from the modem. -/
def deleteStaleImage
    (file : FileName) : Talk Unit := do
  if ← Talk.carryOut (Procedure.hasImage file) then
    let _ ← Talk.carryOut (Procedure.deleteImage file)

/- Begin an attempt to download the image. -/
def beginAttempt
    (now : Instant)
    (u : Updater) : Talk Updater := do
  let file := u.checkpoint.path.file
  restoreData
  deleteStaleImage file
  Talk.clearCompletion
  Talk.count .downloadAttempt
  let outcome ←
    Talk.carryOut (Procedure.startDownload file)
  if outcome.isOk then
    return { u with time.pendingSince := some now }
  else
    u.attemptFailed

/- The number of the command that downloads. -/
def downloadNumber : UInt16 :=
  100

/- The result of a transfer that went through. -/
def resultDone : UInt8 :=
  1

/- The status of a transfer that the server granted. -/
def statusGranted : UInt16 :=
  200

/- A completed transfer brought the image of an upgrade path. -/
def accepts
    (path : UpgradePath)
    (completion : Completion) : Bool :=
  completion.command = downloadNumber &&
    completion.result = resultDone &&
    completion.status = statusGranted &&
    path.hasDigest completion.digest.text

/- Begin an attempt, or look after the one under way. -/
def downloadReady
    (now : Instant)
    (u : Updater) : Talk Updater := do
  match u.time.pendingSince with
  | none => u.beginAttempt now
  | some since =>
      match ← Talk.takeCompletion with
      | some completion =>
          if accepts u.checkpoint.path completion then
            return u.moveTo .installCellDisconnecting
          else
            u.attemptFailed
      | none =>
          if since.Elapsed u.policy.downloadTimeout now then
            u.attemptFailed
          else
            return u

end Updater

end Fota
