import Fota.Board.Cloud
import Fota.Board.Sara
import Fota.Link.Supervisor
import Fota.Modem.Client
import Fota.Modem.Procedure
import Fota.Storage.Cache
import Fota.Update.Surroundings

/-
  This file defines the device: the modem client on the port,
  the cellular link over the SARA driver, the cache in flash and
  the boot mode that the cache carries across resets. A device
  answers what the updater and the supervisor of its link ask.

  Key definitions include:
    * `Base`
    * `Device`
    * `Device.boot`
    * `Device.exchange`
    * `Device.answerLink`
    * `Device.withLink`
    * `Device.supervise`
    * `Device.Reset`
    * `Device.answer`
-/

namespace Fota

------------------------------------------------------------
-- Device
------------------------------------------------------------

/- What of a device outlasts the firmware that runs on it. -/
structure Base
    (σ : Type) where
  hardware : σ
  mailbox : Mailbox
  cloud : Cloud
  telemetry : Telemetry

/- A device under running firmware. -/
structure Device
    (σ : Type) where
  base : Base σ
  buffer : LineBuffer
  link : Link
  sara : Sara
  cache : Cache
  safeMode : Bool
  updatesEnabled : Bool
  lastRegistrationPoll : Option Instant

namespace Device

variable {σ : Type} [Hardware σ]

------------------------------------------------------------
-- Parts of a Device
------------------------------------------------------------

/- The reading of the clock. -/
def now
    (d : Device σ) : Instant :=
  Port.now d.base.hardware

/- The flash memory. -/
def flash
    (d : Device σ) : Flash :=
  Hardware.flash d.base.hardware

/- Change the hardware. -/
def setHardware
    (hardware : σ)
    (d : Device σ) : Device σ :=
  { d with base.hardware := hardware }

/- Change the mailbox. -/
def setMailbox
    (mailbox : Mailbox)
    (d : Device σ) : Device σ :=
  { d with base.mailbox := mailbox }

/- Change the cloud. -/
def setCloud
    (cloud : Cloud)
    (d : Device σ) : Device σ :=
  { d with base.cloud := cloud }

/- Change telemetry. -/
def editTelemetry
    (edit : Telemetry → Telemetry)
    (d : Device σ) : Device σ :=
  { d with base.telemetry := edit d.base.telemetry }

------------------------------------------------------------
-- Modem
------------------------------------------------------------

/- The client with which the device speaks to the modem. -/
def client
    (d : Device σ) : Client where
  buffer := d.buffer
  mailbox := d.base.mailbox

/- Keep the client and the hardware after an exchange. -/
def keep
    (client : Client)
    (hardware : σ)
    (d : Device σ) : Device σ :=
  { d with
    buffer := client.buffer
    base.mailbox := client.mailbox
    base.hardware := hardware }

/- Exchange the text of a command for a reply. -/
def exchange
    (command : String)
    (patience : UInt32) : StateM (Device σ) Reply :=
  modifyGet fun d =>
    let exchanged :=
      d.client.exchange command patience d.base.hardware
    (exchanged.1, d.keep exchanged.2.1 exchanged.2.2)

/- Send a command of the firmware. -/
def send
    (command : Command) : StateM (Device σ) Reply :=
  exchange command.text command.patience

/- Let the notices that have arrived reach the mailbox. -/
def hearNotices : StateM (Device σ) Unit :=
  modify fun d =>
    let drained := d.client.drain d.base.hardware
    d.keep drained.1 drained.2

------------------------------------------------------------
-- Cache
------------------------------------------------------------

/- The value of a key of the cache. -/
def cacheGet
    (key : CacheKey)
    (room : Nat)
    (d : Device σ) : Except Fault (List UInt8) :=
  d.cache.get key room d.flash

/- Keep what an operation of the cache made of the flash. -/
def keepFlash
    (result : Except Fault Flash)
    (d : Device σ) : Except Fault Unit × Device σ :=
  match result with
  | .error fault => (.error fault, d)
  | .ok flash =>
      (.ok (),
        d.setHardware (Hardware.setFlash flash d.base.hardware))

/- Keep a value under a key of the cache. -/
def cacheSet
    (key : CacheKey)
    (value : List UInt8)
    (d : Device σ) : Except Fault Unit × Device σ :=
  d.keepFlash (d.cache.set key value d.flash)

/- Forget the value of a key of the cache. -/
def cacheDelete
    (key : CacheKey)
    (d : Device σ) : Except Fault Unit × Device σ :=
  d.keepFlash (d.cache.delete key d.flash)

------------------------------------------------------------
-- Link
------------------------------------------------------------

/- Keep the driver and the hardware after a change of power. -/
def keepSara
    (sara : Sara)
    (hardware : σ)
    (d : Device σ) : Device σ :=
  { d with
    sara := sara
    base.hardware := hardware }

/- Answer what the supervisor of the link asks. -/
def answerLink :
    (question : Link.Question) →
      StateM (Device σ) (Link.Answer question)
| .now => do
    return (← get).now
| .isReady => do
    return (← get).sara.isReady
| .hasCredentials =>
    return true
| .powerOn =>
    modifyGet fun d =>
      let switched := d.sara.powerOn d.base.hardware
      (switched.1, d.setHardware switched.2)
| .powerOff =>
    modifyGet fun d =>
      let switched := d.sara.powerOff d.base.hardware
      (switched.1, d.keepSara switched.2.1 switched.2.2)
| .beginConnect =>
    modifyGet fun d =>
      let begun := d.sara.beginConnect d.base.hardware
      (begun.1, { d with sara := begun.2 })
| .disconnect =>
    modifyGet fun d =>
      (.ok (), { d with sara := d.sara.disconnect })
| .suppressData suppressed =>
    modify fun d =>
      { d with sara := d.sara.suppressData suppressed }
| .announce _ what =>
    modify fun d => d.setCloud (d.base.cloud.hear what)
| .closeCloud =>
    modify fun d => d.setCloud d.base.cloud.disconnect
| .showLink technology status =>
    modify (·.editTelemetry (·.showLink technology status))
| .count counter =>
    modify (·.editTelemetry (·.count counter))

/- Let the supervisor of the link act. -/
def withLink
    {α : Type}
    (act : Link → Link.Talk (α × Link)) :
    StateM (Device σ) α := do
  let acted ← (act (← get).link).run answerLink
  modify fun d => { d with link := acted.2 }
  return acted.1

/- Let the supervisor of the link act without a result. -/
def withLink_
    (act : Link → Link.Talk Link) : StateM (Device σ) Unit :=
  withLink fun l => do return ((), ← act l)

/- Carry out an order for the link of a technology. -/
def order
    (technology : Technology)
    (order : Link.Order) :
    StateM (Device σ) (Except Fault Unit) :=
  withLink fun l => l.obeyFor technology order

/- Set the update mode of the link of a technology. -/
def setUpdateMode
    (technology : Technology)
    (enabled : Bool) : StateM (Device σ) Unit :=
  withLink_ fun l => l.setUpdateModeFor technology enabled

------------------------------------------------------------
-- Supervision
------------------------------------------------------------

/- Milliseconds between two looks at the registration. -/
def registrationPoll : Nat :=
  5000

/- The profile over which the device attaches. -/
def dataProfile : UInt8 :=
  0

/- The context over which the device attaches. -/
def dataContext : UInt8 :=
  1

/- Find out whether the modem is attached, or attach it. -/
def attach : Procedure Bool := do
  if ← Procedure.isRegistered then
    if ← Procedure.isContextActive dataProfile then
      return true
    else
      let outcome ←
        Procedure.activateContext dataProfile dataContext
      return outcome.isOk
  else
    return false

/- It is time to look at the registration again. -/
def IsPollDue
    (d : Device σ) : Prop :=
  ∀ last ∈ d.lastRegistrationPoll,
    registrationPoll ≤ d.now.since last

instance
    (d : Device σ) :
    Decidable d.IsPollDue := by
  unfold IsPollDue
  infer_instance

/- Look at the registration and tell the driver. -/
def pollRegistration : StateM (Device σ) Unit := do
  modify fun d => { d with lastRegistrationPoll := some d.now }
  let attached ← attach.run send
  modify fun d =>
    { d with sara := d.sara.setRegistered attached }

/-
  One round of supervision. While an attach is wanted the
  registration is looked at from time to time.
-/
def supervise : StateM (Device σ) Unit := do
  let d ← get
  if d.sara.wantsRegistration ∧ d.IsPollDue then
    pollRegistration
  withLink_ Link.process

------------------------------------------------------------
-- Boot Mode
------------------------------------------------------------

/- The value that stands for normal mode. -/
def normalMode : UInt8 :=
  0

/- The value that stands for safe mode. -/
def safeModeByte : UInt8 :=
  1

/- The stored boot mode says that the device runs in safe mode. -/
def readSafeMode
    (cache : Cache)
    (flash : Flash) : Bool :=
  match cache.get .bootMode 1 flash with
  | .ok value => value = [safeModeByte]
  | .error _ => false

/- The firmware runs on a target of 32 bits. -/
def target : Target :=
  .bits32

/- A device whose firmware has just begun to run. -/
def boot
    (updatesEnabled : Bool)
    (base : Base σ) : Except Fault (Device σ) := do
  let flash := Hardware.flash base.hardware
  let cache ← Cache.atEnd target flash
  let policy := Link.Policy.standard
  let blank : Device σ :=
    { base := base
      buffer := .empty
      link := .fresh .cellular policy
      sara := .fresh policy.powerOnTimeout
      cache := cache
      safeMode := readSafeMode cache flash
      updatesEnabled := updatesEnabled
      lastRegistrationPoll := none }
  let started := (Link.start .cellular policy).run answerLink
  let (link, d) := started.run blank
  return { d with link := link }

/- A reset ends the firmware that asked for it. -/
structure Reset where
deriving DecidableEq, Repr

/- A computation on a device that a reset may end. -/
abbrev Running
    (σ : Type) :=
  ExceptT Reset (StateM (Device σ))

/- Store a boot mode, as far as possible, and reset. -/
def resetInto
    (mode : UInt8) : Running σ Unit := do
  modify fun d => (d.cacheSet .bootMode [mode]).2
  throw ⟨⟩

------------------------------------------------------------
-- Answers to the Updater
------------------------------------------------------------

/- Answer what the updater asks. -/
def answer :
    (question : Update.Question) →
      Running σ (Update.Answer question)
| .hearNotices => ExceptT.lift hearNotices
| .command command => ExceptT.lift (send command)
| .takeCompletion =>
    modifyGet fun d =>
      let taken := d.base.mailbox.takeCompletion
      (taken.1, d.setMailbox taken.2)
| .clearCompletion =>
    modify fun d => d.setMailbox d.base.mailbox.clearCompletion
| .takeDeactivation =>
    modifyGet fun d =>
      let taken := d.base.mailbox.takeDeactivation
      (taken.1, d.setMailbox taken.2)
| .progress => do
    return (← get).base.mailbox.progress
| .clearProgress =>
    modify fun d => d.setMailbox d.base.mailbox.clearProgress
| .networkOn => ExceptT.lift (order .cellular .on)
| .networkOff => ExceptT.lift (order .cellular .off)
| .networkConnect =>
    ExceptT.lift (order .cellular .connect)
| .networkDisconnect reason =>
    ExceptT.lift (order .cellular (.disconnect reason))
| .isNetworkReady => do
    return (← get).link.isReadyFor .cellular
| .networkPower => do
    return (← get).link.powerFor .cellular
| .setUpdateMode enabled =>
    ExceptT.lift (setUpdateMode .cellular enabled)
| .isCloudConnected => do
    return (← get).base.cloud.isConnected
| .connectCloud =>
    modify fun d => d.setCloud d.base.cloud.connect
| .disconnectCloud =>
    modify fun d => d.setCloud d.base.cloud.disconnect
| .publish _ => do
    return (← get).base.cloud.publish
| .isFeatureEnabled => do
    return (← get).base.cloud.updatesAllowed
| .now => do
    return (← get).now
| .delay ms =>
    modify fun d =>
      d.setHardware (Hardware.delay ms d.base.hardware)
| .modemFamily => return .saraR510
| .areUpdatesEnabled => do
    return (← get).updatesEnabled
| .isSafeMode => do
    return (← get).safeMode
| .resetToSafeMode => resetInto safeModeByte
| .resetToNormalMode => resetInto normalMode
| .load room => do
    return (← get).cacheGet .updateRecord room
| .store record =>
    modifyGet fun d => d.cacheSet .updateRecord record
| .count counter =>
    modify (·.editTelemetry (·.count counter))
| .showStatus status =>
    modify (·.editTelemetry (·.showStatus status))

end Device

end Fota
