import Fota.Bench.Script
import Fota.Bytes.Hex
import Fota.Modem.Mailbox
import Fota.Storage.Cache
import Fota.Text.Utf8
import Fota.Update.Updater

/-
  This file defines a scripted world for an updater: a modem
  that follows a script, a network and a cloud whose behaviour
  is set beforehand, a clock, a boot mode and a cache in flash.
  What the updater asks is noted.

  Key definitions include:
    * `Bench.World`
    * `Bench.World.Note`
    * `Bench.World.power`
    * `Bench.World.answer`
-/

namespace Fota

namespace Bench

namespace World

------------------------------------------------------------
-- Settings
------------------------------------------------------------

/- The operations of the network whose outcome is set. -/
inductive Operation where
| on
| off
| connect
| disconnect
deriving DecidableEq, Repr

/- The name of an operation. -/
def Operation.name : Operation → String
| on => "net_on"
| off => "net_off"
| connect => "net_connect"
| disconnect => "net_disconnect"

/- A change of power that is still to come. -/
structure PowerChange where
  due : Instant
  power : PowerState
deriving DecidableEq, Repr

/-
  The settings of a world. An outcome of none is success; a
  sticky link or session stays up when it is dropped.
-/
structure Settings where
  clock : Instant
  family : ModemFamily
  updatesEnabled : Bool
  featureEnabled : Bool
  safeMode : Bool
  power : PowerState
  change : Option PowerChange
  powerOnDelay : Nat
  powerOffDelay : Nat
  outcome : Operation → Option Fault
  ready : Bool
  linkSticky : Bool
  cloudConnected : Bool
  cloudAutoConnect : Bool
  cloudSticky : Bool
  publishOk : Bool

/- A world in which everything works at once. -/
def Settings.standard : Settings where
  clock := .ofNat 0
  family := .saraR510
  updatesEnabled := true
  featureEnabled := true
  safeMode := false
  power := .on
  change := none
  powerOnDelay := 0
  powerOffDelay := 0
  outcome := fun _ => none
  ready := true
  linkSticky := false
  cloudConnected := true
  cloudAutoConnect := true
  cloudSticky := false
  publishOk := true

/- Set the power; a change that was to come is forgotten. -/
def Settings.setPower
    (power : PowerState)
    (s : Settings) : Settings :=
  { s with power := power, change := none }

/- How the modem answers a command of the script. -/
structure Answer where
  outcome : Outcome
  takes : Nat
  lines : List String
  notices : List String
deriving Repr

------------------------------------------------------------
-- Notes
------------------------------------------------------------

/- What is noted of the questions of an updater. -/
inductive Note where
| command (patience : UInt32) (text : String)
| networkOn
| networkOff
| networkConnect
| networkDisconnect (reason : DropReason)
| updateMode (enabled : Bool)
| resetSafe
| resetNormal
| store (key : CacheKey) (value : List UInt8)
| connectCloud
| disconnectCloud
| publish (event : Update.Event)
deriving DecidableEq, Repr

namespace Note

/- The number of bytes of a stored value that are shown. -/
def shownSize : Nat :=
  34

/- The line that shows a stored value: its start and its end. -/
def storeLine
    (key : CacheKey)
    (value : List UInt8) : String :=
  let start := Bytes.hex (value.take shownSize)
  let last := Bytes.hex (value.drop (value.length - 1))
  "cache_set " ++ toString key.code.toNat ++ " " ++
    toString value.length ++ " " ++ start ++ " " ++ last

/- The line that shows a note. -/
def line : Note → String
| command patience text =>
    "at " ++ toString patience.toNat ++ " " ++ text
| networkOn => "net_on cellular"
| networkOff => "net_off cellular"
| networkConnect => "net_connect cellular"
| networkDisconnect reason =>
    "net_disconnect cellular " ++ reason.name
| updateMode enabled =>
    "update_mode cellular " ++ toString enabled
| resetSafe => "reset safe"
| resetNormal => "reset normal"
| store key value => storeLine key value
| connectCloud => "cloud_connect"
| disconnectCloud => "cloud_disconnect"
| publish event =>
    "publish " ++ Update.Event.topic ++ " " ++ event.data ++
      " Private"

end Note

end World

------------------------------------------------------------
-- World
------------------------------------------------------------

/- A scripted world with its notes. -/
structure World where
  settings : World.Settings
  script : Script World.Answer
  pending : List String
  mailbox : Mailbox
  flash : Flash
  cache : Cache
  telemetry : Telemetry
  notes : List World.Note

namespace World

/- The size of the flash memory. -/
def flashSize : Nat :=
  16384

/- A world in which nothing has happened. -/
def fresh
    (settings : Settings)
    (script : Script Answer) : World where
  settings := settings
  script := script
  pending := []
  mailbox := .empty
  flash := .erased flashSize
  cache := ⟨.ofNat (flashSize - Cache.span)⟩
  telemetry := .initial
  notes := []

/- Add a note. -/
def note
    (n : Note)
    (w : World) : World :=
  { w with notes := w.notes ++ [n] }

/- Change the settings. -/
def edit
    (change : Settings → Settings)
    (w : World) : World :=
  { w with settings := change w.settings }

/- Let some milliseconds pass. -/
def advance
    (ms : Nat)
    (w : World) : World :=
  w.edit fun s => { s with clock := s.clock.after ms }

------------------------------------------------------------
-- Modem
------------------------------------------------------------

/- Follow the script for a command. -/
def command
    (c : Command)
    (w : World) : Reply × World :=
  let w := w.note (.command c.patience c.text)
  let answered := w.script.answer? (Text.utf8 c.text)
  match answered.1 with
  | none => (.refused, w)
  | some answer =>
      let w := w.advance answer.takes
      (⟨answer.outcome, answer.lines⟩,
        { w with
          script := answered.2
          pending := w.pending ++ answer.notices })

/- Let the pending notices reach the mailbox. -/
def hearNotices
    (w : World) : World :=
  { w with
    mailbox := w.mailbox.deliverAll w.pending
    pending := [] }

------------------------------------------------------------
-- Network
------------------------------------------------------------

/- The power, with the change that is due taken into account. -/
def power
    (w : World) : PowerState :=
  match w.settings.change with
  | some change =>
      if change.due.toNat ≤ w.settings.clock.toNat then
        change.power
      else
        w.settings.power
  | none => w.settings.power

/- Switch to a power, at once or by way of another one. -/
def switchPower
    (between goal : PowerState)
    (wait : Nat)
    (w : World) : World :=
  if wait = 0 then
    w.edit (·.setPower goal)
  else
    w.edit fun s =>
      { s with
        power := between
        change := some ⟨s.clock.after wait, goal⟩ }

/- Change whether the network carries data. -/
def setReady
    (ready : Bool)
    (w : World) : World :=
  w.edit fun s => { s with ready := ready }

/- Do an operation, unless it is to fail. -/
def perform
    (operation : Operation)
    (w : World) : Except Fault Unit × World :=
  match w.settings.outcome operation with
  | some fault => (.error fault, w)
  | none =>
      match operation with
      | .on =>
          (.ok (),
            w.switchPower .turningOn .on w.settings.powerOnDelay)
      | .off =>
          (.ok (),
            (w.switchPower .turningOff .off
              w.settings.powerOffDelay).setReady false)
      | .connect =>
          if w.power = .on then
            (.ok (), w.setReady true)
          else
            (.error .invalidState, w)
      | .disconnect =>
          (.ok (),
            w.setReady
              (w.settings.linkSticky && w.settings.ready))

/- Note an operation and do it. -/
def operate
    (n : Note)
    (operation : Operation) :
    StateM World (Except Fault Unit) :=
  modifyGet fun w => (w.note n).perform operation

------------------------------------------------------------
-- Cloud
------------------------------------------------------------

/- Connect the cloud, if it connects when it is asked. -/
def connectCloud
    (w : World) : World :=
  (w.note .connectCloud).edit fun s =>
    { s with
      cloudConnected := s.cloudConnected || s.cloudAutoConnect }

/- Disconnect the cloud, unless it is sticky. -/
def disconnectCloud
    (w : World) : World :=
  (w.note .disconnectCloud).edit fun s =>
    { s with
      cloudConnected := s.cloudConnected && s.cloudSticky }

------------------------------------------------------------
-- Storage
------------------------------------------------------------

/- Keep what an operation of the cache made of the flash. -/
def keepFlash
    (result : Except Fault Flash)
    (w : World) : Except Fault Unit × World :=
  match result with
  | .error fault => (.error fault, w)
  | .ok flash => (.ok (), { w with flash := flash })

/- Keep a value under a key of the cache. -/
def cacheSet
    (key : CacheKey)
    (value : List UInt8)
    (w : World) : Except Fault Unit × World :=
  w.keepFlash (w.cache.set key value w.flash)

/- Forget the value of a key of the cache. -/
def cacheDelete
    (key : CacheKey)
    (w : World) : Except Fault Unit × World :=
  w.keepFlash (w.cache.delete key w.flash)

/- The value of a key of the cache. -/
def cacheGet
    (key : CacheKey)
    (room : Nat)
    (w : World) : Except Fault (List UInt8) :=
  w.cache.get key room w.flash

------------------------------------------------------------
-- Answers
------------------------------------------------------------

/- Change the boot mode; the updater goes on. -/
def setSafeMode
    (safeMode : Bool)
    (w : World) : World :=
  w.edit fun s => { s with safeMode := safeMode }

/- Answer what an updater asks. -/
def answer :
    (question : Update.Question) →
      StateM World (Update.Answer question)
| .hearNotices => modify hearNotices
| .command c => modifyGet (command c)
| .takeCompletion =>
    modifyGet fun w =>
      let taken := w.mailbox.takeCompletion
      (taken.1, { w with mailbox := taken.2 })
| .clearCompletion =>
    modify fun w =>
      { w with mailbox := w.mailbox.clearCompletion }
| .takeDeactivation =>
    modifyGet fun w =>
      let taken := w.mailbox.takeDeactivation
      (taken.1, { w with mailbox := taken.2 })
| .progress => do
    return (← get).mailbox.progress
| .clearProgress =>
    modify fun w =>
      { w with mailbox := w.mailbox.clearProgress }
| .networkOn => operate .networkOn .on
| .networkOff => operate .networkOff .off
| .networkConnect => operate .networkConnect .connect
| .networkDisconnect reason =>
    operate (.networkDisconnect reason) .disconnect
| .isNetworkReady => do
    return (← get).settings.ready
| .networkPower => do
    return (← get).power
| .setUpdateMode enabled =>
    modify (·.note (.updateMode enabled))
| .isCloudConnected => do
    return (← get).settings.cloudConnected
| .connectCloud => modify connectCloud
| .disconnectCloud => modify disconnectCloud
| .publish event => do
    modify (·.note (.publish event))
    return (← get).settings.publishOk
| .isFeatureEnabled => do
    return (← get).settings.featureEnabled
| .now => do
    return (← get).settings.clock
| .delay ms => modify (·.advance ms.toNat)
| .modemFamily => do
    return (← get).settings.family
| .areUpdatesEnabled => do
    return (← get).settings.updatesEnabled
| .isSafeMode => do
    return (← get).settings.safeMode
| .resetToSafeMode =>
    modify fun w => (w.note .resetSafe).setSafeMode true
| .resetToNormalMode =>
    modify fun w => (w.note .resetNormal).setSafeMode false
| .load room => do
    return (← get).cacheGet .updateRecord room
| .store record =>
    modifyGet fun w =>
      (w.note (.store .updateRecord record)).cacheSet
        .updateRecord record
| .count counter =>
    modify fun w =>
      { w with telemetry := w.telemetry.count counter }
| .showStatus status =>
    modify fun w =>
      { w with telemetry := w.telemetry.showStatus status }

/- Let an updater talk with the world. -/
def talk
    {α : Type}
    (dialogue : Update.Talk α)
    (w : World) : α × World :=
  (dialogue.run answer).run w

/- Collect the notes. -/
def collectNotes
    (w : World) : List Note × World :=
  (w.notes, { w with notes := [] })

end World

end Bench

end Fota
