import Fota.Board.Device
import Fota.Update.Tick

/-
  This file defines the firmware as a whole: a device and the
  updater that runs on it, how both are started, and one tick of
  their supervision.

  Key definitions include:
    * `Firmware`
    * `Firmware.Start`
    * `Firmware.boot`
    * `Firmware.request`
    * `Firmware.tick`
-/

namespace Fota

------------------------------------------------------------
-- Firmware
------------------------------------------------------------

/- A device and the updater that runs on it. -/
structure Firmware
    (σ : Type) where
  device : Device σ
  updater : Updater

namespace Firmware

variable {σ : Type} [Hardware σ]

/-
  Let the updater talk with the device. A reset leaves only the
  device as it was then.
-/
def talk
    {α : Type}
    (dialogue : Update.Talk α)
    (device : Device σ) :
    Except Device.Reset α × Device σ :=
  (dialogue.run Device.answer).run.run device

------------------------------------------------------------
-- Start
------------------------------------------------------------

/-
  How firmware is started: whether the user allows updates,
  whether the cloud does, if the updater is to be started at
  all, and whether the link is asked for.
-/
structure Start where
  updatesEnabled : Bool
  cloudAllows : Option Bool
  connect : Bool
deriving DecidableEq, Repr

/- What became of a start. -/
inductive Booted
    (σ : Type) where
| refused (fault : Fault) (base : Base σ)
| reset (base : Base σ)
| running
    (firmware : Firmware σ)
    (connected : Option (Except Fault Unit))

/- What the firmware starts on: no notices, no session. -/
def cleared
    (start : Start)
    (base : Base σ) : Base σ :=
  { base with
    mailbox := .empty
    cloud := .fresh (start.cloudAllows.getD false) }

/- Start the updater, if it is to be started at all. -/
def startUpdater
    (start : Start)
    (updater : Updater) : Update.Talk Updater :=
  match start.cloudAllows with
  | none => return updater
  | some _ => updater.init

/- Ask for the link, if it is to be asked for. -/
def startLink
    (start : Start) :
    StateM (Device σ) (Option (Except Fault Unit)) := do
  if start.connect then
    return some (← Device.order .cellular .connect)
  else
    return none

/- Start firmware on what outlasted the last one. -/
def boot
    (start : Start)
    (base : Base σ) : Booted σ :=
  let base := cleared start base
  match Device.boot start.updatesEnabled base with
  | .error fault => .refused fault base
  | .ok device =>
      let updater := Updater.fresh .standard .standard
      match talk (startUpdater start updater) device with
      | (.error _, device) => .reset device.base
      | (.ok updater, device) =>
          let (connected, device) := (startLink start).run device
          .running ⟨device, updater⟩ connected

------------------------------------------------------------
-- Ticks and Requests
------------------------------------------------------------

/- What became of firmware that was asked for something. -/
inductive Outcome
    (σ : Type) where
| reset (base : Base σ)
| done (result : Except Fault Unit) (firmware : Firmware σ)

/- Ask the updater for something that it may refuse. -/
def request
    (ask : Updater → Update.Talk (Except Fault Updater))
    (f : Firmware σ) : Outcome σ :=
  match talk (ask f.updater) f.device with
  | (.error _, device) => .reset device.base
  | (.ok (.error fault), device) =>
      .done (.error fault) ⟨device, f.updater⟩
  | (.ok (.ok updater), device) =>
      .done (.ok ()) ⟨device, updater⟩

/- Let the device act. -/
def withDevice
    {α : Type}
    (act : StateM (Device σ) α)
    (f : Firmware σ) : α × Firmware σ :=
  let (result, device) := act.run f.device
  (result, { f with device := device })

/- One round of supervision and one tick of the updater. -/
def tick
    (f : Firmware σ) : Outcome σ :=
  (f.withDevice Device.supervise).2.request Updater.tick

end Firmware

end Fota
