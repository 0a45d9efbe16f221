import Fota.Update.Updater

/-
  This file defines the stages in which an update run installs
  the downloaded image and waits for the modem to come back.

  Key definitions include:
    * `Updater.installCellDisconnecting`
    * `Updater.installStarting`
    * `Updater.installWaiting`
-/

namespace Fota

open Update (Talk)

namespace Updater

------------------------------------------------------------
-- Start of the Install
------------------------------------------------------------

/- Drop the link and wait for it. -/
def installCellDisconnecting
    (now : Instant)
    (entered : Bool)
    (u : Updater) : Talk Updater := do
  if entered then
    let _ ← Talk.networkDisconnect
  if ¬ (← Talk.isNetworkReady) then
    return u.moveTo .installStarting
  else if
      u.TimedOut now u.policy.cellularDisconnectTimeout then
    return u.fail .installCellularDisconnectTimeout .finishedIdle
  else
    return u

/-
  Read the version that is to be replaced and start the install.
  Only a refusal ends the run; no answer may come from a modem
  that has begun.
-/
def beginInstall
    (now : Instant)
    (u : Updater) : Talk Updater := do
  let version ← Talk.carryOut Procedure.readVersion
  let replaced :=
    if version = 0 then u.checkpoint.installed else version
  let u := { u with checkpoint.replaced := replaced }
  Talk.clearProgress
  let outcome ← Talk.carryOut Procedure.startInstall
  if outcome = .error then
    return u.fail .installAtError .finishedPowerOff
  else
    return u.cool now u.policy.installStartPoll

/- Start the install and wait for the modem to go silent. -/
def installStarting
    (now : Instant)
    (entered : Bool)
    (u : Updater) : Talk Updater := do
  if entered then
    u.beginInstall now
  else if ¬ (← Talk.carryOut Procedure.probe).isOk then
    let u := u.setStatus .updating
    let u ← u.checkpointAt .installWaiting
    return u.moveTo .installWaiting
  else if u.TimedOut now u.policy.installStartTimeout then
    return u.fail .startInstallTimeout .finishedPowerOff
  else
    return u.cool now u.policy.installStartPoll

------------------------------------------------------------
-- End of the Install
------------------------------------------------------------

/- The progress at which an install is complete. -/
def progressComplete : UInt8 :=
  100

/- The install progress says that the install is complete. -/
def isComplete
    (progress : Option UInt8) : Bool :=
  progress.any (fun value => progressComplete ≤ value)

/- The version of the modem, zero while it does not answer. -/
def probeVersion : Talk UInt32 := do
  if (← Talk.carryOut Procedure.probe).isOk then
    Talk.carryOut Procedure.readVersion
  else
    return 0

/- What the version of a modem that answers says of the install. -/
inductive Verdict where
| unchanged
| installed
| undecided
deriving DecidableEq, Repr

/-
  Judge an install. The replaced version means that it failed,
  whatever the progress; the wanted one, or any other together
  with full progress, that it succeeded.
-/
def judge
    (version : UInt32)
    (complete : Bool)
    (c : Checkpoint) : Verdict :=
  if version = 0 then
    .undecided
  else if version = c.replaced then
    .unchanged
  else if version = c.wanted ∨ complete then
    .installed
  else
    .undecided

/- Look whether the install has ended. -/
def pollInstall
    (now : Instant)
    (u : Updater) : Talk Updater := do
  Talk.count .installPoll
  let progress ← Talk.progress
  let version ← probeVersion
  match judge version (isComplete progress) u.checkpoint with
  | .unchanged =>
      let u := { u with checkpoint.installed := version }
      return u.fail .sameVersion .finishedPowerOff
  | .installed =>
      let u := { u with checkpoint.installed := version }
      return (u.setStatus .success).moveTo .finishedPowerOff
  | .undecided =>
      if u.TimedOut now u.policy.installFinishTimeout then
        return u.fail .installTimeout .finishedPowerOff
      else
        return u.cool now u.policy.installProbePoll

/- Wait for the install to end, with a pause before each look. -/
def installWaiting
    (now : Instant)
    (entered : Bool)
    (u : Updater) : Talk Updater := do
  if entered then
    return u.cool now u.policy.installProbePoll
  else
    u.pollInstall now

end Updater

end Fota
