import Fota.Update.Stage
import Fota.Update.Status
import Fota.Update.UpgradePath

/-
  This file defines the checkpoint of an update run: what is
  kept of it across resets.

  Key definitions include:
    * `Checkpoint`
    * `Checkpoint.initial`
-/

namespace Fota

------------------------------------------------------------
-- Checkpoint
------------------------------------------------------------

/-
  A checkpoint of an update run. `installed` is the version that
  was read last, `replaced` the one read right before the
  install, `wanted` the one that the run is to lead to. The path
  is the caller's own when `ownPath` says so.
-/
structure Checkpoint where
  stage : Stage
  status : Status
  installed : UInt32
  replaced : UInt32
  wanted : UInt32
  availability : Availability
  ownPath : Bool
  path : UpgradePath
deriving DecidableEq, Repr

namespace Checkpoint

/- The checkpoint of a device on which nothing has run. -/
def initial : Checkpoint where
  stage := .idle
  status := .idle
  installed := 0
  replaced := 0
  wanted := 0
  availability := .unknown
  ownPath := false
  path := .empty

end Checkpoint

end Fota
