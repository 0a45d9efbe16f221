/-
  This file defines the tuning of update runs.

  Key definitions include:
    * `Update.Policy`
    * `Update.Policy.standard`
    * `Update.Policy.Field`
    * `Update.Policy.words`
    * `Update.Policy.bytes`
-/

namespace Fota

namespace Update

------------------------------------------------------------
-- Policy
------------------------------------------------------------

/-
  The tuning of an update run. Timeouts, pauses between polls
  and cooldowns are in milliseconds; the rest are limits of
  retries and attempts.
-/
structure Policy where
  powerOnTimeout : UInt32
  powerOffTimeout : UInt32
  cloudConnectTimeout : UInt32
  cloudDisconnectTimeout : UInt32
  cellularConnectTimeout : UInt32
  cellularConnectPoll : UInt32
  cellularDisconnectTimeout : UInt32
  downloadTimeout : UInt32
  installProbePoll : UInt32
  installStartTimeout : UInt32
  installStartPoll : UInt32
  installFinishTimeout : UInt32
  qualifyRetryMax : UInt8
  qualifyRetryCooldown : UInt32
  publishStartRetryMax : UInt8
  httpsSetupRetryMax : UInt8
  httpsSetupRetryCooldown : UInt32
  downloadAttemptsMax : UInt8
  cloudConnectExitRetryMax : UInt8
  publishStartCooldown : UInt32
  cloudDisconnectCooldown : UInt32
deriving DecidableEq, Repr

/- The milliseconds of a second. -/
def second : UInt32 :=
  1000

/- The milliseconds of a minute. -/
def minute : UInt32 :=
  60 * second

/- The tuning in use unless another one is named. -/
def Policy.standard : Policy where
  powerOnTimeout := minute
  powerOffTimeout := minute
  cloudConnectTimeout := 5 * minute
  cloudDisconnectTimeout := 2 * minute
  cellularConnectTimeout := 10 * minute
  cellularConnectPoll := 5 * second
  cellularDisconnectTimeout := 2 * minute
  downloadTimeout := 5 * minute
  installProbePoll := 10 * second
  installStartTimeout := 5 * minute
  installStartPoll := second
  installFinishTimeout := 30 * minute
  qualifyRetryMax := 2
  qualifyRetryCooldown := 10 * second
  publishStartRetryMax := 1
  httpsSetupRetryMax := 2
  httpsSetupRetryCooldown := 10 * second
  downloadAttemptsMax := 3
  cloudConnectExitRetryMax := 1
  publishStartCooldown := 20 * second
  cloudDisconnectCooldown := 10 * second

------------------------------------------------------------
-- Fields by Name
------------------------------------------------------------

/- A field of the tuning: its name, how it is read and changed. -/
structure Policy.Field
    (α : Type) where
  name : String
  get : Policy → α
  set : α → Policy → Policy

/- The times, by name. -/
def Policy.words : List (Policy.Field UInt32) :=
  [⟨"power_on_timeout_ms", (·.powerOnTimeout),
      fun v p => { p with powerOnTimeout := v }⟩,
    ⟨"power_off_timeout_ms", (·.powerOffTimeout),
      fun v p => { p with powerOffTimeout := v }⟩,
    ⟨"cloud_connect_timeout_ms", (·.cloudConnectTimeout),
      fun v p => { p with cloudConnectTimeout := v }⟩,
    ⟨"cloud_disconnect_timeout_ms", (·.cloudDisconnectTimeout),
      fun v p => { p with cloudDisconnectTimeout := v }⟩,
    ⟨"cellular_connect_timeout_ms", (·.cellularConnectTimeout),
      fun v p => { p with cellularConnectTimeout := v }⟩,
    ⟨"cellular_connect_poll_ms", (·.cellularConnectPoll),
      fun v p => { p with cellularConnectPoll := v }⟩,
    ⟨"cellular_disconnect_timeout_ms", (·.cellularDisconnectTimeout),
      fun v p => { p with cellularDisconnectTimeout := v }⟩,
    ⟨"download_timeout_ms", (·.downloadTimeout),
      fun v p => { p with downloadTimeout := v }⟩,
    ⟨"install_atok_interval_ms", (·.installProbePoll),
      fun v p => { p with installProbePoll := v }⟩,
    ⟨"install_start_timeout_ms", (·.installStartTimeout),
      fun v p => { p with installStartTimeout := v }⟩,
    ⟨"install_start_poll_ms", (·.installStartPoll),
      fun v p => { p with installStartPoll := v }⟩,
    ⟨"install_finish_timeout_ms", (·.installFinishTimeout),
      fun v p => { p with installFinishTimeout := v }⟩,
    ⟨"qualify_retry_cooldown_ms", (·.qualifyRetryCooldown),
      fun v p => { p with qualifyRetryCooldown := v }⟩,
    ⟨"https_setup_retry_cooldown_ms", (·.httpsSetupRetryCooldown),
      fun v p => { p with httpsSetupRetryCooldown := v }⟩,
    ⟨"publish_start_cooldown_ms", (·.publishStartCooldown),
      fun v p => { p with publishStartCooldown := v }⟩,
    ⟨"cloud_disconnect_cooldown_ms", (·.cloudDisconnectCooldown),
      fun v p => { p with cloudDisconnectCooldown := v }⟩]

/- The limits, by name. -/
def Policy.bytes : List (Policy.Field UInt8) :=
  [⟨"qualify_retry_max", (·.qualifyRetryMax),
      fun v p => { p with qualifyRetryMax := v }⟩,
    ⟨"publish_start_retry_max", (·.publishStartRetryMax),
      fun v p => { p with publishStartRetryMax := v }⟩,
    ⟨"https_setup_retry_max", (·.httpsSetupRetryMax),
      fun v p => { p with httpsSetupRetryMax := v }⟩,
    ⟨"download_attempts_max", (·.downloadAttemptsMax),
      fun v p => { p with downloadAttemptsMax := v }⟩,
    ⟨"cloud_connect_exit_retry_max", (·.cloudConnectExitRetryMax),
      fun v p => { p with cloudConnectExitRetryMax := v }⟩]

end Update

end Fota
