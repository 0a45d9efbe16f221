import Fota.Link.Technology
import Fota.Update.Status

/-
  This file defines the counters and diagnostics that the
  firmware keeps for reporting.

  Key definitions include:
    * `Counter`
    * `Telemetry`
    * `Telemetry.count`
    * `Telemetry.showStatus`
    * `Telemetry.showLink`
-/

namespace Fota

------------------------------------------------------------
-- Counters
------------------------------------------------------------

/- What is counted. -/
inductive Counter where
| updateRun
| downloadAttempt
| downloadFailure
| installPoll
| reset
| connectAttempt
| watchdogReset
deriving DecidableEq, Repr

------------------------------------------------------------
-- Telemetry
------------------------------------------------------------

/-
  Telemetry holds the counters, the last status shown and the
  link status of each technology. Counters start again at zero
  after 2 ^ 32 - 1.
-/
structure Telemetry where
  counts : Counter → UInt32
  status : Status
  links : Technology → LinkStatus

namespace Telemetry

/- Telemetry at power-up. -/
def initial : Telemetry where
  counts := fun _ => 0
  status := .noRun
  links := fun _ => .disconnected

/- Count one more. -/
def count
    (counter : Counter)
    (t : Telemetry) : Telemetry :=
  { t with
    counts := fun c =>
      if c = counter then t.counts c + 1 else t.counts c }

/- Show the status of an update run. -/
def showStatus
    (status : Status)
    (t : Telemetry) : Telemetry :=
  { t with status := status }

/- Show the status of the link of a technology. -/
def showLink
    (technology : Technology)
    (status : LinkStatus)
    (t : Telemetry) : Telemetry :=
  { t with
    links := fun other =>
      if other = technology then status else t.links other }

end Telemetry

end Fota
