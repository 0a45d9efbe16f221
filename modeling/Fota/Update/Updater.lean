import Fota.Update.Pacing
import Fota.Update.Policy
import Fota.Update.Record
import Fota.Update.Surroundings

/-
  This file defines the updater of the modem firmware and the
  small steps of which its stages are made. The updater owns the
  checkpoint of the run and passes at most one stage per tick.

  Key definitions include:
    * `Updater`
    * `Updater.fresh`
    * `Updater.moveTo`
    * `Updater.fail`
    * `Updater.cool`
    * `Updater.TimedOut`
    * `Updater.persist`
    * `Updater.checkpointAt`
    * `Updater.show`
-/

namespace Fota

open Update (Policy Talk)

------------------------------------------------------------
-- Updater
------------------------------------------------------------

/-
  An updater. It can work once it was started; `shown` is the
  status of the last finished run, for diagnostics.
-/
structure Updater where
  policy : Policy
  server : Server
  started : Bool
  checkpoint : Checkpoint
  shown : Status
  cooldown : Option Cooldown
  time : StageTime
  retries : Retries
deriving DecidableEq, Repr

namespace Updater

/- An updater before its start. -/
def fresh
    (policy : Policy)
    (server : Server) : Updater where
  policy := policy
  server := server
  started := false
  checkpoint := .initial
  shown := .noRun
  cooldown := none
  time := .fresh
  retries := .none

/- The stage that the next tick works on. -/
def stage
    (u : Updater) : Stage :=
  u.checkpoint.stage

/- The status of the run. -/
def status
    (u : Updater) : Status :=
  u.checkpoint.status

------------------------------------------------------------
-- Changes of the Run
------------------------------------------------------------

/- Go on to a stage, which begins with its first tick. -/
def moveTo
    (next : Stage)
    (u : Updater) : Updater :=
  { u with
    checkpoint.stage := next
    time := .fresh }

/- Change the status of the run. -/
def setStatus
    (status : Status)
    (u : Updater) : Updater :=
  { u with checkpoint.status := status }

/- Note a failure and go on to a stage. -/
def fail
    (cause : Failure)
    (next : Stage)
    (u : Updater) : Updater :=
  (u.setStatus (.failed cause)).moveTo next

/- Begin a cooldown. -/
def cool
    (now : Instant)
    (duration : UInt32)
    (u : Updater) : Updater :=
  { u with cooldown := Cooldown.arm now duration }

/- The stage has lasted for a timeout. -/
def TimedOut
    (now : Instant)
    (timeout : UInt32)
    (u : Updater) : Prop :=
  timeout.toNat ≤ u.time.elapsed now

instance
    (now : Instant)
    (timeout : UInt32)
    (u : Updater) :
    Decidable (u.TimedOut now timeout) := by
  unfold TimedOut
  infer_instance

------------------------------------------------------------
-- Checkpoints and Diagnostics
------------------------------------------------------------

/- Store the checkpoint; a failure to do so changes nothing. -/
def persist
    (u : Updater) : Talk Unit := do
  let _ ← Talk.store (Record.encode u.checkpoint)
  return ()

/- Change the stage and store the checkpoint. -/
def checkpointAt
    (next : Stage)
    (u : Updater) : Talk Updater := do
  let u := { u with checkpoint.stage := next }
  u.persist
  return u

/- The stored checkpoint, if there is a valid one. -/
def loadCheckpoint : Talk (Option Checkpoint) := do
  match ← Talk.load Record.size with
  | .ok record => return Record.decode? record
  | .error _ => return none

/- Show a status in diagnostics. -/
def «show»
    (status : Status)
    (u : Updater) : Talk Updater := do
  Talk.showStatus status
  return { u with shown := status }

/- Show the status of the last finished run again. -/
def showAgain
    (u : Updater) : Talk Status := do
  Talk.showStatus u.shown
  return u.shown

end Updater

end Fota
