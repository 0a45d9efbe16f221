/-
  This file defines the words that describe network links: the
  technologies, the power of a radio, the status of a link, what
  is announced about it and why it is dropped.

  Key definitions include:
    * `Technology`
    * `PowerState`
    * `LinkStatus`
    * `Announcement`
    * `DropReason`
-/

namespace Fota

------------------------------------------------------------
-- Technologies
------------------------------------------------------------

/- The technology of a link. -/
inductive Technology where
| cellular
| wifi
| mesh
| ethernet
deriving DecidableEq, Repr

namespace Technology

/- Every technology, in the order of its declaration. -/
def all : List Technology :=
  [cellular, wifi, mesh, ethernet]

/- The position of a technology in the order. -/
def index : Technology → Nat
| cellular => 0
| wifi => 1
| mesh => 2
| ethernet => 3

/- The name of a technology. -/
def name : Technology → String
| cellular => "cellular"
| wifi => "wifi"
| mesh => "mesh"
| ethernet => "ethernet"

/- The technology with a given name. -/
def ofName?
    (name : String) : Option Technology :=
  all.find? (fun technology => technology.name = name)

end Technology

------------------------------------------------------------
-- Power
------------------------------------------------------------

/- The power of a radio. -/
inductive PowerState where
| unknown
| off
| turningOn
| on
| turningOff
deriving DecidableEq, Repr

namespace PowerState

/- Every state of power, in the order of its declaration. -/
def all : List PowerState :=
  [unknown, off, turningOn, on, turningOff]

/- The name of a state of power. -/
def name : PowerState → String
| unknown => "Unknown"
| off => "Off"
| turningOn => "TurningOn"
| on => "On"
| turningOff => "TurningOff"

/- The state of power with a given name. -/
def ofName?
    (name : String) : Option PowerState :=
  all.find? (fun power => power.name = name)

end PowerState

------------------------------------------------------------
-- Link Status
------------------------------------------------------------

/- The status of a link, as diagnostics report it. -/
inductive LinkStatus where
| disconnected
| connecting
| connected
| disconnecting
deriving DecidableEq, Repr

namespace LinkStatus

/- Every link status, in the order of its declaration. -/
def all : List LinkStatus :=
  [disconnected, connecting, connected, disconnecting]

/- The name of a link status. -/
def name : LinkStatus → String
| disconnected => "Disconnected"
| connecting => "Connecting"
| connected => "Connected"
| disconnecting => "Disconnecting"

/- The number that stands for a link status. -/
def code : LinkStatus → UInt8
| disconnected => 0
| connecting => 1
| connected => 2
| disconnecting => 3

/- The link status that a number stands for. -/
def ofCode?
    (code : UInt8) : Option LinkStatus :=
  all.find? (fun status => status.code = code)

end LinkStatus

------------------------------------------------------------
-- Announcements
------------------------------------------------------------

/- What is announced, once for each change of a link. -/
inductive Announcement where
| poweredOn
| poweredOff
| connecting
| connected
| disconnected
| listeningStarted
| listeningStopped
deriving DecidableEq, Repr

namespace Announcement

/- Every announcement, in the order of its declaration. -/
def all : List Announcement :=
  [poweredOn, poweredOff, connecting, connected, disconnected,
    listeningStarted, listeningStopped]

/- The name of an announcement. -/
def name : Announcement → String
| poweredOn => "PoweredOn"
| poweredOff => "PoweredOff"
| connecting => "Connecting"
| connected => "Connected"
| disconnected => "Disconnected"
| listeningStarted => "ListeningStarted"
| listeningStopped => "ListeningStopped"

/- The announcement with a given name. -/
def ofName?
    (name : String) : Option Announcement :=
  all.find? (fun announcement => announcement.name = name)

end Announcement

------------------------------------------------------------
-- Reasons to Drop a Link
------------------------------------------------------------

/- The reason for which a link is dropped. -/
inductive DropReason where
| user
| listening
| reset
| powerOff
| firmwareUpdate
deriving DecidableEq, Repr

namespace DropReason

/- Every reason, in the order of its declaration. -/
def all : List DropReason :=
  [user, listening, reset, powerOff, firmwareUpdate]

/- The name of a reason. -/
def name : DropReason → String
| user => "user"
| listening => "listening"
| reset => "reset"
| powerOff => "power_off"
| firmwareUpdate => "ncp_update"

/- The reason with a given name. -/
def ofName?
    (name : String) : Option DropReason :=
  all.find? (fun reason => reason.name = name)

end DropReason

end Fota
