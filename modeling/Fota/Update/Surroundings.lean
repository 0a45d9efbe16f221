import Fota.Clock
import Fota.Dialogue
import Fota.Fault
import Fota.Modem.Procedure
import Fota.Telemetry

/-
  This file defines what the updater asks of its surroundings:
  the modem, the mailbox of notices, the cellular network, the
  cloud, the clock, the boot mode, the stored record and
  telemetry.

  Key definitions include:
    * `ModemFamily`
    * `Update.Event`
    * `Update.Question`
    * `Update.Answer`
    * `Update.Talk`
-/

namespace Fota

------------------------------------------------------------
-- Modem Families
------------------------------------------------------------

/- The families of modems that a device may carry. -/
inductive ModemFamily where
| unknown
| saraG350
| saraU201
| saraR410
| saraR510
| esp32
deriving DecidableEq, Repr

namespace ModemFamily

/- Every family, in the order of its declaration. -/
def all : List ModemFamily :=
  [unknown, saraG350, saraU201, saraR410, saraR510, esp32]

/- The name of a family. -/
def name : ModemFamily → String
| unknown => "Unknown"
| saraG350 => "SaraG350"
| saraU201 => "SaraU201"
| saraR410 => "SaraR410"
| saraR510 => "SaraR510"
| esp32 => "Esp32"

/- The family with a given name. -/
def ofName?
    (name : String) : Option ModemFamily :=
  all.find? (fun family => family.name = name)

end ModemFamily

namespace Update

------------------------------------------------------------
-- Published Events
------------------------------------------------------------

/- What an update run publishes. -/
inductive Event where
| started
| success
| failed
deriving DecidableEq, Repr

namespace Event

/- The name under which an update run publishes. -/
def topic : String :=
  "spark/device/ncp/update"

/- The data of an event. -/
def data : Event → String
| started => "started"
| success => "success"
| failed => "failed"

end Event

------------------------------------------------------------
-- Questions
------------------------------------------------------------

/- What an updater asks. -/
inductive Question where
| hearNotices
| command (command : Command)
| takeCompletion
| clearCompletion
| takeDeactivation
| progress
| clearProgress
| networkOn
| networkOff
| networkConnect
| networkDisconnect (reason : DropReason)
| isNetworkReady
| networkPower
| setUpdateMode (enabled : Bool)
| isCloudConnected
| connectCloud
| disconnectCloud
| publish (event : Event)
| isFeatureEnabled
| now
| delay (ms : UInt32)
| modemFamily
| areUpdatesEnabled
| isSafeMode
| resetToSafeMode
| resetToNormalMode
| load (room : Nat)
| store (record : List UInt8)
| count (counter : Counter)
| showStatus (status : Status)
deriving DecidableEq, Repr

/- The type of the answers to a question. -/
@[reducible]
def Answer : Question → Type
| .hearNotices => Unit
| .command _ => Reply
| .takeCompletion => Option Completion
| .clearCompletion => Unit
| .takeDeactivation => Option UInt8
| .progress => Option UInt8
| .clearProgress => Unit
| .networkOn => Except Fault Unit
| .networkOff => Except Fault Unit
| .networkConnect => Except Fault Unit
| .networkDisconnect _ => Except Fault Unit
| .isNetworkReady => Bool
| .networkPower => PowerState
| .setUpdateMode _ => Unit
| .isCloudConnected => Bool
| .connectCloud => Unit
| .disconnectCloud => Unit
| .publish _ => Bool
| .isFeatureEnabled => Bool
| .now => Instant
| .delay _ => Unit
| .modemFamily => ModemFamily
| .areUpdatesEnabled => Bool
| .isSafeMode => Bool
| .resetToSafeMode => Unit
| .resetToNormalMode => Unit
| .load _ => Except Fault (List UInt8)
| .store _ => Except Fault Unit
| .count _ => Unit
| .showStatus _ => Unit

/- A dialogue of an updater with its surroundings. -/
abbrev Talk :=
  Dialogue Question Answer

namespace Talk

------------------------------------------------------------
-- Modem
------------------------------------------------------------

/- Let the notices that have arrived reach the mailbox. -/
def hearNotices : Talk Unit :=
  .ask .hearNotices .done

/- Send a command and await its reply. -/
def command
    (command : Command) : Talk Reply :=
  .ask (.command command) .done

/- Carry out a procedure with the modem. -/
def carryOut
    {α : Type}
    (procedure : Procedure α) : Talk α :=
  procedure.run command

/- Take the last completed transfer out of the mailbox. -/
def takeCompletion : Talk (Option Completion) :=
  .ask .takeCompletion .done

/- Forget the last completed transfer. -/
def clearCompletion : Talk Unit :=
  .ask .clearCompletion .done

/- Take the last deactivated context out of the mailbox. -/
def takeDeactivation : Talk (Option UInt8) :=
  .ask .takeDeactivation .done

/- The install progress in the mailbox. -/
def progress : Talk (Option UInt8) :=
  .ask .progress .done

/- Forget the install progress. -/
def clearProgress : Talk Unit :=
  .ask .clearProgress .done

------------------------------------------------------------
-- Network
------------------------------------------------------------

/- Power the modem on. -/
def networkOn : Talk (Except Fault Unit) :=
  .ask .networkOn .done

/- Power the modem off. -/
def networkOff : Talk (Except Fault Unit) :=
  .ask .networkOff .done

/- Connect the cellular network. -/
def networkConnect : Talk (Except Fault Unit) :=
  .ask .networkConnect .done

/- Disconnect the cellular network for the time of the update. -/
def networkDisconnect : Talk (Except Fault Unit) :=
  .ask (.networkDisconnect .firmwareUpdate) .done

/- Whether the cellular network carries data. -/
def isNetworkReady : Talk Bool :=
  .ask .isNetworkReady .done

/- The power of the modem. -/
def networkPower : Talk PowerState :=
  .ask .networkPower .done

/- Take the modem for the update, or give it back. -/
def setUpdateMode
    (enabled : Bool) : Talk Unit :=
  .ask (.setUpdateMode enabled) .done

------------------------------------------------------------
-- Cloud
------------------------------------------------------------

/- Whether there is a session with the cloud. -/
def isCloudConnected : Talk Bool :=
  .ask .isCloudConnected .done

/- Ask for a session with the cloud. -/
def connectCloud : Talk Unit :=
  .ask .connectCloud .done

/- Ask for the session with the cloud to end. -/
def disconnectCloud : Talk Unit :=
  .ask .disconnectCloud .done

/- Publish an event, given a session; tell whether it worked. -/
def publish
    (event : Event) : Talk Bool := do
  if ← isCloudConnected then
    .ask (.publish event) .done
  else
    return false

/- Whether the cloud allows updates of the modem. -/
def isFeatureEnabled : Talk Bool :=
  .ask .isFeatureEnabled .done

------------------------------------------------------------
-- System
------------------------------------------------------------

/- The reading of the clock. -/
def now : Talk Instant :=
  .ask .now .done

/- Let some milliseconds pass. -/
def delay
    (ms : UInt32) : Talk Unit :=
  .ask (.delay ms) .done

/- The family of the modem. -/
def modemFamily : Talk ModemFamily :=
  .ask .modemFamily .done

/- Whether the user allows updates of the modem. -/
def areUpdatesEnabled : Talk Bool :=
  .ask .areUpdatesEnabled .done

/- Whether the device runs in safe mode. -/
def isSafeMode : Talk Bool :=
  .ask .isSafeMode .done

/- Count a reset and reset the device into safe mode. -/
def resetToSafeMode : Talk Unit := do
  .ask (.count .reset) .done
  .ask .resetToSafeMode .done

/- Count a reset and reset the device into normal mode. -/
def resetToNormalMode : Talk Unit := do
  .ask (.count .reset) .done
  .ask .resetToNormalMode .done

/- The stored record, if it is at most `room` bytes long. -/
def load
    (room : Nat) : Talk (Except Fault (List UInt8)) :=
  .ask (.load room) .done

/- Store a record. -/
def store
    (record : List UInt8) : Talk (Except Fault Unit) :=
  .ask (.store record) .done

/- Count an event in telemetry. -/
def count
    (counter : Counter) : Talk Unit :=
  .ask (.count counter) .done

/- Show a status in telemetry. -/
def showStatus
    (status : Status) : Talk Unit :=
  .ask (.showStatus status) .done

end Talk

end Update

end Fota
