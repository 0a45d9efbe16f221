/-
  This file defines the stages of an update run. The number of a
  stage is stored in the checkpoint record, so that a run goes
  on where a reset stopped it.

  Key definitions include:
    * `Stage`
    * `Stage.code`
    * `Stage.ofCode?`
    * `Stage.name`

  The main statement says that a stage is read back from its
  number, and that no other stage has that number.
-/

namespace Fota

------------------------------------------------------------
-- Stages
------------------------------------------------------------

/-
  The stages of an update run, in the order in which a run
  passes them.
-/
inductive Stage where
| idle
| qualifyFlags
| qualifyModemOn
| qualifyRetry
| setupCloudConnect
| setupCloudConnecting
| setupCloudConnected
| downloadCloudDisconnect
| downloadCellDisconnecting
| downloadCellConnecting
| downloadHttpsSetup
| downloadReady
| installCellDisconnecting
| installStarting
| installWaiting
| finishedPowerOff
| finishedPoweringOff
| finishedCloudConnecting
| finishedCloudConnected
| finishedIdle
deriving DecidableEq, Repr

namespace Stage

/- Every stage, in order. -/
def all : List Stage :=
  [idle, qualifyFlags, qualifyModemOn, qualifyRetry,
    setupCloudConnect, setupCloudConnecting,
    setupCloudConnected, downloadCloudDisconnect,
    downloadCellDisconnecting, downloadCellConnecting,
    downloadHttpsSetup, downloadReady,
    installCellDisconnecting, installStarting,
    installWaiting, finishedPowerOff, finishedPoweringOff,
    finishedCloudConnecting, finishedCloudConnected,
    finishedIdle]

/- The number of a stage. -/
def code : Stage → UInt8
| idle => 0
| qualifyFlags => 1
| qualifyModemOn => 2
| qualifyRetry => 3
| setupCloudConnect => 4
| setupCloudConnecting => 5
| setupCloudConnected => 6
| downloadCloudDisconnect => 7
| downloadCellDisconnecting => 8
| downloadCellConnecting => 9
| downloadHttpsSetup => 10
| downloadReady => 11
| installCellDisconnecting => 12
| installStarting => 13
| installWaiting => 14
| finishedPowerOff => 15
| finishedPoweringOff => 16
| finishedCloudConnecting => 17
| finishedCloudConnected => 18
| finishedIdle => 19

/- The stage with a given number. -/
def ofCode?
    (code : UInt8) : Option Stage :=
  all.find? (fun stage => stage.code = code)

/- The name of a stage. -/
def name : Stage → String
| idle => "idle"
| qualifyFlags => "qualify_flags"
| qualifyModemOn => "qualify_modem_on"
| qualifyRetry => "qualify_retry"
| setupCloudConnect => "setup_cloud_connect"
| setupCloudConnecting => "setup_cloud_connecting"
| setupCloudConnected => "setup_cloud_connected"
| downloadCloudDisconnect => "download_cloud_disconnect"
| downloadCellDisconnecting => "download_cell_disconnecting"
| downloadCellConnecting => "download_cell_connecting"
| downloadHttpsSetup => "download_https_setup"
| downloadReady => "download_ready"
| installCellDisconnecting => "install_cell_disconnecting"
| installStarting => "install_starting"
| installWaiting => "install_waiting"
| finishedPowerOff => "finished_power_off"
| finishedPoweringOff => "finished_powering_off"
| finishedCloudConnecting => "finished_cloud_connecting"
| finishedCloudConnected => "finished_cloud_connected"
| finishedIdle => "finished_idle"

/- The stage with a given name. -/
def ofName?
    (name : String) : Option Stage :=
  all.find? (fun stage => stage.name = name)

/- A number stands for a stage exactly when it is its number. -/
theorem ofCode?_eq_some_iff
    {code : UInt8}
    {stage : Stage} :
    ofCode? code = some stage ↔ code = stage.code := by
  constructor
  · intro hSome
    have hCode := List.find?_some hSome
    exact (of_decide_eq_true hCode).symm
  · intro hCode
    subst hCode
    cases stage <;> rfl

end Stage

end Fota
