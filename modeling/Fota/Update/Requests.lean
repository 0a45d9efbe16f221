import Fota.Update.Updater

/-
  This file defines what can be asked of an updater from
  outside: to start, to run an update, and to use an upgrade
  path of the caller. A request that is refused leaves the
  updater as it is.

  Key definitions include:
    * `Updater.supportedFamily`
    * `Updater.init`
    * `Updater.checkUpdate`
    * `Updater.setPath`
    * `Updater.enableUpdates`
-/

namespace Fota

open Update (Talk)

namespace Updater

/- The family of modems whose firmware can be updated. -/
def supportedFamily : ModemFamily :=
  .saraR510

------------------------------------------------------------
-- Start
------------------------------------------------------------

/- A checkpoint put back to rest after its run was shown. -/
def atRest
    (c : Checkpoint) : Checkpoint :=
  { c with
    stage := .idle
    status := .idle
    availability := .unknown
    ownPath := false }

/-
  Take a stored checkpoint up. A finished run is shown in normal
  mode, and stays stored until then. An install under way goes
  on in safe mode, after a reset if needed. Any other run goes
  on in safe mode only.
-/
def resume
    (safeMode : Bool)
    (stored : Checkpoint)
    (u : Updater) : Talk Updater := do
  if stored.stage = .finishedIdle then
    if safeMode then
      return { u with checkpoint := .initial }
    else
      let u ← u.show stored.status
      let u := { u with checkpoint := atRest stored }
      u.persist
      return u
  else if stored.stage = .installWaiting ∧ ¬ safeMode then
    Talk.resetToSafeMode
    return { u with checkpoint := stored }
  else if safeMode then
    return { u with checkpoint := stored }
  else
    return { u with checkpoint := .initial }

/- Start the updater where the stored checkpoint left it. -/
def init
    (u : Updater) : Talk Updater := do
  let u := { u with started := true }
  let safeMode ← Talk.isSafeMode
  let u ←
    match ← loadCheckpoint with
    | some stored => u.resume safeMode stored
    | none => pure { u with checkpoint := .initial }
  return { u with cooldown := none, time := .fresh }

------------------------------------------------------------
-- Runs
------------------------------------------------------------

/- The updater can begin a run: it is started and at rest. -/
def Ready
    (u : Updater) : Prop :=
  u.started = true ∧ u.stage = .idle ∧ u.status = .idle

instance
    (u : Updater) :
    Decidable u.Ready := by
  unfold Ready
  infer_instance

/- Begin a run. -/
def beginRun
    (u : Updater) : Talk Updater := do
  Talk.count .updateRun
  let u := { u with retries := .none, cooldown := none }
  return u.moveTo .qualifyFlags

/- Use an upgrade path of the caller. -/
def usePath
    (path : UpgradePath)
    (u : Updater) : Updater :=
  { u with
    checkpoint.path := path
    checkpoint.ownPath := true }

/- Ask for a run along an upgrade path of the caller. -/
def checkUpdate
    (path : UpgradePath)
    (u : Updater) : Talk (Except Fault Updater) := do
  if ¬ path.Valid then
    return .error .invalidArgument
  else if ¬ u.Ready then
    return .error .invalidState
  else
    return .ok (← (u.usePath path).beginRun)

/-
  Set the upgrade path of the next run, or go back to the
  catalogue.
-/
def setPath
    (path : Option UpgradePath)
    (u : Updater) : Except Fault Updater :=
  if u.stage ≠ .idle then
    .error .invalidState
  else
    match path with
    | none =>
        .ok
          { u with
            checkpoint.path := .empty
            checkpoint.ownPath := false }
    | some path =>
        if path.Valid then
          .ok (u.usePath path)
        else
          .error .invalidArgument

/- Milliseconds between two looks at the power of the modem. -/
def powerPoll : UInt32 :=
  100

/-
  Wait for the modem to be on. The number of looks is bounded;
  it is enough for any clock that a delay moves on.
-/
def awaitPower
    (began : Instant)
    (timeout : UInt32) :
    Nat → Talk Bool
| 0 => return false
| looks + 1 => do
    if (← Talk.networkPower) = .on then
      return true
    else
      let now ← Talk.now
      if began.Elapsed timeout now then
        return false
      else
        Talk.delay powerPoll
        awaitPower began timeout looks

/- Power the modem on, unless it is, and wait for it. -/
def powerOn
    (u : Updater) : Talk Bool := do
  if (← Talk.networkPower) = .on then
    return true
  else
    match ← Talk.networkOn with
    | .error _ => return false
    | .ok () =>
        let began ← Talk.now
        let timeout := u.policy.powerOnTimeout
        awaitPower began timeout (timeout.toNat + 1)

/- Modem, user and cloud allow updates; asked in this order. -/
def isAllowed : Talk Bool := do
  if (← Talk.modemFamily) ≠ supportedFamily then
    return false
  else if ¬ (← Talk.areUpdatesEnabled) then
    return false
  else
    Talk.isFeatureEnabled

/- Ask for a run, given that the device qualifies. -/
def enableUpdates
    (u : Updater) : Talk (Except Fault Updater) := do
  if ¬ u.Ready then
    return .error .invalidState
  else if ¬ (← isAllowed) then
    return .error .invalidState
  else if ¬ (← u.powerOn) then
    return .error .invalidState
  else
    return .ok (← u.beginRun)

end Updater

end Fota
