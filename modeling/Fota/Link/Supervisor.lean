import Fota.Link.Driver
import Fota.Link.Listening
import Fota.Link.Watchdog

/-
  This file defines the supervisor of one link: power, attach,
  detach and listening, with a watchdog that starts attempts
  anew when they do not end.

  Key definitions include:
    * `Link.Policy`
    * `Link`
    * `Link.start`
    * `Link.on`
    * `Link.off`
    * `Link.connect`
    * `Link.disconnect`
    * `Link.process`
    * `Link.setUpdateMode`
-/

namespace Fota

------------------------------------------------------------
-- Policy
------------------------------------------------------------

/- The tuning of a link supervisor, in milliseconds. -/
structure Link.Policy where
  connectWatchdog : UInt32
  powerOnTimeout : UInt32
  listenOnMissingCredentials : Bool
  listenTimeout : UInt32
deriving DecidableEq, Repr

/- The tuning in use unless another one is named. -/
def Link.Policy.standard : Link.Policy where
  connectWatchdog := 300000
  powerOnTimeout := 60000
  listenOnMissingCredentials := true
  listenTimeout := 300000

------------------------------------------------------------
-- Link
------------------------------------------------------------

/- The state of a link under supervision. -/
structure Link where
  technology : Technology
  policy : Link.Policy
  watchdog : Watchdog
  listening : Listening
  status : LinkStatus
  powered : Bool
  initialized : Bool
  connecting : Bool
  connected : Bool
  updateMode : Bool
deriving DecidableEq, Repr

namespace Link

/- A link that was never used. -/
def fresh
    (technology : Technology)
    (policy : Policy) : Link where
  technology := technology
  policy := policy
  watchdog := .idle
  listening := .off policy.listenTimeout
  status := .disconnected
  powered := false
  initialized := false
  connecting := false
  connected := false
  updateMode := false

/- Start to supervise a link. -/
def start
    (technology : Technology)
    (policy : Policy) : Talk Link := do
  let l := fresh technology policy
  Talk.showLink technology l.status
  return l

/- Announce a change of the link. -/
def announce
    (what : Announcement)
    (l : Link) : Talk Unit :=
  Talk.announce l.technology what

/- Change the status of the link and show it. -/
def setStatus
    (status : LinkStatus)
    (l : Link) : Talk Link := do
  Talk.showLink l.technology status
  return { l with status := status }

/- Disarm the watchdog. -/
def disarm
    (l : Link) : Link :=
  { l with watchdog := l.watchdog.disarm }

------------------------------------------------------------
-- Attach and Detach
------------------------------------------------------------

/- Note that the radio carries data. -/
def markConnected
    (l : Link) : Talk Link := do
  let l := { l.disarm with connecting := false }
  if l.connected then
    return l
  else
    let l ← { l with connected := true }.setStatus .connected
    l.announce .connected
    return l

/-
  Drop the link, unless there is none. A session in the cloud is
  closed first, except on the way to a new attempt.
-/
def disconnect
    (reason : DropReason)
    (l : Link) : Talk (Except Fault Unit × Link) := do
  if ¬ l.connecting ∧ ¬ l.connected then
    return (.ok (), l)
  else
    if l.connected ∧ reason ≠ .reset then
      Talk.closeCloud
    let l ← l.setStatus .disconnecting
    let result ← Talk.disconnect
    let l := { l with connecting := false, connected := false }
    let l ← l.disarm.setStatus .disconnected
    l.announce .disconnected
    return (result, l)

/- Start to attach; a radio that refuses ends the attempt. -/
def attach
    (l : Link) : Talk (Except Fault Unit × Link) := do
  let l ← { l with connecting := true }.setStatus .connecting
  l.announce .connecting
  match ← Talk.beginConnect with
  | .ok () => return (.ok (), l)
  | .error fault =>
      let l := { l.disarm with connecting := false }
      let l ← l.setStatus .disconnected
      return (.error fault, l)

------------------------------------------------------------
-- Power
------------------------------------------------------------

/- Power the radio on, unless it is. -/
def on
    (l : Link) : Talk (Except Fault Unit × Link) := do
  if l.powered then
    return (.ok (), l)
  else
    match ← Talk.powerOn with
    | .error fault => return (.error fault, l)
    | .ok () =>
        let l := { l with powered := true, initialized := true }
        l.announce .poweredOn
        return (.ok (), l)

/- Drop the link and power the radio off, unless it is. -/
def off
    (l : Link) : Talk (Except Fault Unit × Link) := do
  if ¬ l.powered then
    return (.ok (), l)
  else
    let (_, l) ← l.disconnect .powerOff
    match ← Talk.powerOff with
    | .error fault => return (.error fault, l)
    | .ok () =>
        let l :=
          { l with powered := false, initialized := false }
        l.announce .poweredOff
        return (.ok (), l)

------------------------------------------------------------
-- Connecting
------------------------------------------------------------

/- Listen for setup when a missing network asks for it. -/
def listenForCredentials
    (l : Link) : Link :=
  if l.policy.listenOnMissingCredentials then
    { l with listening := l.listening.requestEnter }
  else
    l

/- Arm the watchdog, count the attempt, power on and attach. -/
def attempt
    (l : Link) : Talk (Except Fault Unit × Link) := do
  let now ← Talk.now
  let l :=
    { l with
      watchdog := l.watchdog.arm now l.policy.connectWatchdog }
  Talk.count .connectAttempt
  let (powered, l) ← l.on
  if ¬ (← Talk.hasCredentials) then
    return (.error .notFound, l.disarm.listenForCredentials)
  else
    match powered with
    | .error fault => return (.error fault, l.disarm)
    | .ok () =>
        if l.updateMode then
          return (.ok (), l.disarm)
        else
          l.attach

/-
  Ask for the link. A radio that already carries data completes
  it at once; an attempt under way and listening come first.
-/
def connect
    (l : Link) : Talk (Except Fault Unit × Link) := do
  if ← Talk.isReady then
    let l ← l.markConnected
    return (.ok (), l)
  else if (l.connecting ∧ l.initialized) ∨
      l.listening.isEngaged then
    return (.ok (), l)
  else
    l.attempt

------------------------------------------------------------
-- Listening
------------------------------------------------------------

/- Ask for listening to start. -/
def listen
    (l : Link) : Link :=
  { l with listening := l.listening.requestEnter }

/- Ask for listening to end. -/
def stopListening
    (l : Link) : Link :=
  { l with listening := l.listening.requestExit }

/- Act on the requests to listen. -/
def updateListening
    (now : Instant)
    (l : Link) : Talk Link := do
  let (change, listening) := l.listening.update now
  let l := { l with listening := listening }
  match change with
  | some .started =>
      let (_, l) ← l.disconnect .listening
      l.announce .listeningStarted
      return l
  | some .stopped =>
      l.announce .listeningStopped
      return l
  | none => return l

------------------------------------------------------------
-- Supervision
------------------------------------------------------------

/- Look after an attempt: it is done, stuck or still going on. -/
def superviseAttempt
    (now : Instant)
    (l : Link) : Talk Link := do
  if ← Talk.isReady then
    l.markConnected
  else if l.watchdog.Expired now then
    Talk.count .watchdogReset
    let (_, l) ← l.disconnect .reset
    let (_, l) ← l.connect
    return l
  else
    return l

/- Look after an established link: a lost one is asked for anew. -/
def superviseLink
    (l : Link) : Talk Link := do
  if ← Talk.isReady then
    return l
  else
    let l ← { l with connected := false }.setStatus .disconnected
    l.announce .disconnected
    let (_, l) ← l.connect
    return l

/- One round of supervision. -/
def process
    (l : Link) : Talk Link := do
  let now ← Talk.now
  let l ← l.updateListening now
  if l.connecting then
    l.superviseAttempt now
  else if l.connected then
    l.superviseLink
  else
    return l

/- Keep the radio powered with the data link held down. -/
def setUpdateMode
    (enabled : Bool)
    (l : Link) : Talk Link := do
  if l.updateMode = enabled then
    return l
  else
    Talk.suppressData enabled
    return { l with updateMode := enabled }

------------------------------------------------------------
-- Control by Technology
------------------------------------------------------------

/- What a control of links may be asked to do with one of them. -/
inductive Order where
| on
| off
| connect
| disconnect (reason : DropReason)
deriving DecidableEq, Repr

/- Carry an order out. -/
def obey
    (order : Order)
    (l : Link) : Talk (Except Fault Unit × Link) :=
  match order with
  | .on => l.on
  | .off => l.off
  | .connect => l.connect
  | .disconnect reason => l.disconnect reason

/- Carry an order out, if it is for the technology of the link. -/
def obeyFor
    (technology : Technology)
    (order : Order)
    (l : Link) : Talk (Except Fault Unit × Link) :=
  if technology = l.technology then
    l.obey order
  else
    return (.error .notSupported, l)

/- Whether the link of a technology carries data. -/
def isReadyFor
    (technology : Technology)
    (l : Link) : Bool :=
  technology = l.technology && l.connected

/- The power of the radio of a technology. -/
def powerFor
    (technology : Technology)
    (l : Link) : PowerState :=
  if technology ≠ l.technology then
    .unknown
  else if l.powered then
    .on
  else
    .off

/- Set the update mode of the link of a technology. -/
def setUpdateModeFor
    (technology : Technology)
    (enabled : Bool)
    (l : Link) : Talk Link :=
  if technology = l.technology then
    l.setUpdateMode enabled
  else
    return l

end Link

end Fota
