import Fota.Update.Requests

/-
  This file defines the stages in which an update run finds out
  whether there is something to do: the idle stage, the check of
  the flags, the reading of the version and the retries.

  Key definitions include:
    * `Updater.idle`
    * `Updater.qualifyFlags`
    * `Updater.selectPath`
    * `Updater.qualifyModemOn`
    * `Updater.qualifyRetry`
-/

namespace Fota

open Update (Talk)

namespace Updater

------------------------------------------------------------
-- Rest
------------------------------------------------------------

/-
  Nothing is done at rest in safe mode, so the device leaves it.
  In normal mode a status that has been shown is put back.
-/
def idle
    (u : Updater) : Talk Updater := do
  if ← Talk.isSafeMode then
    Talk.resetToNormalMode
    return { u with checkpoint.ownPath := false }
  else
    return u.setStatus .idle

------------------------------------------------------------
-- Flags and Power
------------------------------------------------------------

/- Cloud and user allow updates; asked in this order. -/
def isWanted : Talk Bool := do
  if ← Talk.isFeatureEnabled then
    Talk.areUpdatesEnabled
  else
    return false

/- Check the modem and the flags, and power the modem on. -/
def qualifyFlags
    (u : Updater) : Talk Updater := do
  if (← Talk.modemFamily) ≠ supportedFamily then
    return u.moveTo .idle
  else if ¬ (← isWanted) then
    let u ← u.show (.failed .qualifyFlags)
    return u.moveTo .idle
  else if (← Talk.networkPower) = .on then
    return u.moveTo .qualifyModemOn
  else
    match ← Talk.networkOn with
    | .ok () => return u.moveTo .qualifyModemOn
    | .error _ => return u.moveTo .qualifyRetry

------------------------------------------------------------
-- Version
------------------------------------------------------------

/-
  Select the upgrade path for a version: that of the caller if
  there is one, else a known one.
-/
def selectPath
    (version : UInt32)
    (u : Updater) : Option Updater :=
  if u.checkpoint.ownPath then
    if u.checkpoint.path.start = version then
      some { u with checkpoint.wanted := u.checkpoint.path.goal }
    else
      none
  else
    (UpgradePath.find? version).map
      (fun path =>
        { u with
          checkpoint.path := path
          checkpoint.wanted := path.goal })

/-
  Act on the version of the modem. With a path to follow the
  run is stored and goes on in safe mode.
-/
def qualifyVersion
    (version : UInt32)
    (u : Updater) : Talk Updater := do
  let u := { u with checkpoint.installed := version }
  match u.selectPath version with
  | none =>
      let u :=
        { u with checkpoint.availability := .notAvailable }
      return u.moveTo .idle
  | some u =>
      let u := { u with checkpoint.availability := .available }
      let u ← u.checkpointAt .setupCloudConnect
      if ← Talk.isSafeMode then
        return u.moveTo .setupCloudConnect
      else
        Talk.resetToSafeMode
        return u

/- Wait for the modem to be on and read its version. -/
def qualifyModemOn
    (now : Instant)
    (u : Updater) : Talk Updater := do
  if (← Talk.networkPower) = .on then
    let version ← Talk.carryOut Procedure.readVersion
    if version = 0 then
      return u.moveTo .qualifyRetry
    else
      u.qualifyVersion version
  else if u.TimedOut now u.policy.powerOnTimeout then
    return u.moveTo .qualifyRetry
  else
    return u

------------------------------------------------------------
-- Retries
------------------------------------------------------------

/- Qualify again after a cooldown, or give up. -/
def qualifyRetry
    (now : Instant)
    (u : Updater) : Updater :=
  let count := Retries.more u.retries.qualify
  let u := { u with retries.qualify := count }
  if u.policy.qualifyRetryMax < count then
    u.moveTo .idle
  else
    (u.cool now u.policy.qualifyRetryCooldown).moveTo
      .qualifyFlags

end Updater

end Fota
