/-
  This file defines the status of an update run, as it is
  stored, published and shown in diagnostics, and what is known
  about an available update.

  Key definitions include:
    * `Failure`
    * `Status`
    * `Status.code`
    * `Status.ofCode?`
    * `Status.isFailure`
    * `Availability`
-/

namespace Fota

------------------------------------------------------------
-- Failures
------------------------------------------------------------

/- The cause for which an update run failed. -/
inductive Failure where
| qualifyFlags
| cloudConnectOnEntryTimeout
| publishStart
| setupCellularDisconnectTimeout
| cellularConnectTimeout
| httpsSetup
| downloadRetryMax
| installCellularDisconnectTimeout
| startInstallTimeout
| installAtError
| sameVersion
| installTimeout
| powerOffTimeout
| cloudConnectOnExitTimeout
| publishResult
deriving DecidableEq, Repr

namespace Failure

/- Every failure, in the order of its number. -/
def all : List Failure :=
  [qualifyFlags, cloudConnectOnEntryTimeout, publishStart,
    setupCellularDisconnectTimeout, cellularConnectTimeout,
    httpsSetup, downloadRetryMax,
    installCellularDisconnectTimeout, startInstallTimeout,
    installAtError, sameVersion, installTimeout,
    powerOffTimeout, cloudConnectOnExitTimeout,
    publishResult]

/- The number of a failure. -/
def code : Failure → Int
| qualifyFlags => -2
| cloudConnectOnEntryTimeout => -3
| publishStart => -4
| setupCellularDisconnectTimeout => -5
| cellularConnectTimeout => -6
| httpsSetup => -7
| downloadRetryMax => -8
| installCellularDisconnectTimeout => -9
| startInstallTimeout => -10
| installAtError => -11
| sameVersion => -12
| installTimeout => -13
| powerOffTimeout => -14
| cloudConnectOnExitTimeout => -15
| publishResult => -16

/- The name of a failure. -/
def name : Failure → String
| qualifyFlags => "failed_qualify_flags"
| cloudConnectOnEntryTimeout =>
    "failed_cloud_connect_on_entry_timeout"
| publishStart => "failed_publish_start"
| setupCellularDisconnectTimeout =>
    "failed_setup_cellular_disconnect_timeout"
| cellularConnectTimeout => "failed_cellular_connect_timeout"
| httpsSetup => "failed_https_setup"
| downloadRetryMax => "failed_download_retry_max"
| installCellularDisconnectTimeout =>
    "failed_install_cellular_disconnect_timeout"
| startInstallTimeout => "failed_start_install_timeout"
| installAtError => "failed_install_at_error"
| sameVersion => "failed_same_version"
| installTimeout => "failed_install_timeout"
| powerOffTimeout => "failed_power_off_timeout"
| cloudConnectOnExitTimeout =>
    "failed_cloud_connect_on_exit_timeout"
| publishResult => "failed_publish_result"

end Failure

------------------------------------------------------------
-- Status
------------------------------------------------------------

/-
  The status of an update run. `noRun` is shown in diagnostics
  until a run has finished.
-/
inductive Status where
| idle
| downloading
| updating
| success
| noRun
| failed (cause : Failure)
deriving DecidableEq, Repr

namespace Status

/- Every status, in the order of its declaration. -/
def all : List Status :=
  [idle, downloading, updating, success, noRun] ++
    Failure.all.map failed

/- The number of a status. -/
def code : Status → Int
| idle => 0
| downloading => 1
| updating => 2
| success => 3
| noRun => -1
| failed cause => cause.code

/- The status with a given number. -/
def ofCode?
    (code : Int) : Option Status :=
  all.find? (fun status => status.code = code)

/- The status says that a run failed. -/
def isFailure : Status → Bool
| failed _ => true
| _ => false

/- The name of a status. -/
def name : Status → String
| idle => "idle"
| downloading => "downloading"
| updating => "updating"
| success => "success"
| noRun => "none"
| failed cause => cause.name

/- The status with a given name. -/
def ofName?
    (name : String) : Option Status :=
  all.find? (fun status => status.name = name)

/- A number stands for a status exactly when it is its number. -/
theorem ofCode?_eq_some_iff
    {code : Int}
    {status : Status} :
    ofCode? code = some status ↔ code = status.code := by
  constructor
  · intro hSome
    have hCode := List.find?_some hSome
    exact (of_decide_eq_true hCode).symm
  · intro hCode
    subst hCode
    cases status with
    | failed cause =>
        cases cause <;> rfl
    | _ =>
        rfl

end Status

------------------------------------------------------------
-- Availability
------------------------------------------------------------

/- What is known about an available update. -/
inductive Availability where
| unknown
| notAvailable
| available
deriving DecidableEq, Repr

namespace Availability

/- Every availability, in the order of its number. -/
def all : List Availability :=
  [unknown, notAvailable, available]

/- The name of an availability. -/
def name : Availability → String
| unknown => "Unknown"
| notAvailable => "NotAvailable"
| available => "Available"

/- The number of an availability. -/
def code : Availability → UInt8
| unknown => 0
| notAvailable => 1
| available => 2

/- The availability with a given number. -/
def ofCode?
    (code : UInt8) : Option Availability :=
  all.find? (fun availability => availability.code = code)

/- A number stands for an availability when it is its number. -/
theorem ofCode?_eq_some_iff
    {code : UInt8}
    {availability : Availability} :
    ofCode? code = some availability ↔
      code = availability.code := by
  constructor
  · intro hSome
    have hCode := List.find?_some hSome
    exact (of_decide_eq_true hCode).symm
  · intro hCode
    subst hCode
    cases availability <;> rfl

end Availability

end Fota
