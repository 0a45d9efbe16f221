import Fota.Link.Supervisor

/-
  This file defines a scripted radio: the outcomes of its
  operations are set beforehand and everything that is asked of
  it and announced about it is noted.

  Key definitions include:
    * `Bench.Radio`
    * `Bench.Radio.Note`
    * `Bench.Radio.answer`
-/

namespace Fota

namespace Bench

------------------------------------------------------------
-- Radio
------------------------------------------------------------

namespace Radio

/- The operations of a radio whose outcome is set beforehand. -/
inductive Operation where
| powerOn
| powerOff
| beginConnect
| disconnect
deriving DecidableEq, Repr

/- The name of an operation. -/
def Operation.name : Operation → String
| powerOn => "power_on"
| powerOff => "power_off"
| beginConnect => "begin_connect"
| disconnect => "disconnect"

/- The settings of a radio; an outcome of none is success. -/
structure Settings where
  clock : Instant
  ready : Bool
  credentials : Bool
  readyOnConnect : Bool
  outcome : Operation → Option Fault

/- A radio that does all that it is asked. -/
def Settings.standard : Settings where
  clock := .ofNat 0
  ready := false
  credentials := true
  readyOnConnect := false
  outcome := fun _ => none

/-
  What is noted, together with the link status that telemetry
  shows at that moment.
-/
inductive Note where
| operation (what : Operation) (shown : LinkStatus)
| suppress (suppressed : Bool)
| announced
    (technology : Technology)
    (what : Announcement)
    (shown : LinkStatus)
| closedCloud
deriving DecidableEq, Repr

/- The line that shows a note. -/
def Note.line : Note → String
| operation what shown => what.name ++ " " ++ shown.name
| suppress suppressed => "suppress " ++ toString suppressed
| announced technology what shown =>
    "notify " ++ technology.name ++ " " ++ what.name ++ " " ++
      shown.name
| closedCloud => "cloud_disconnect"

end Radio

/- A radio of a technology with its notes and telemetry. -/
structure Radio where
  technology : Technology
  settings : Radio.Settings
  telemetry : Telemetry
  notes : List Radio.Note

namespace Radio

/- A radio on which nothing has happened. -/
def fresh
    (technology : Technology)
    (settings : Settings) : Radio where
  technology := technology
  settings := settings
  telemetry := .initial
  notes := []

/- Add a note. -/
def note
    (n : Note)
    (r : Radio) : Radio :=
  { r with notes := r.notes ++ [n] }

/- Let some milliseconds pass. -/
def advance
    (ms : Nat)
    (r : Radio) : Radio :=
  { r with
    settings :=
      { r.settings with clock := r.settings.clock.after ms } }

/- Change whether the radio is ready. -/
def setReady
    (ready : Bool)
    (r : Radio) : Radio :=
  { r with settings := { r.settings with ready := ready } }

/- What an operation that works does to the radio. -/
def perform
    (operation : Operation)
    (r : Radio) : Radio :=
  match operation with
  | .powerOn => r
  | .powerOff => r.setReady false
  | .beginConnect =>
      r.setReady (r.settings.ready || r.settings.readyOnConnect)
  | .disconnect => r.setReady false

/- Note an operation and do it, unless it is to fail. -/
def operate
    (operation : Operation) :
    StateM Radio (Except Fault Unit) :=
  modifyGet fun r =>
    let shown := r.telemetry.links r.technology
    let r := r.note (.operation operation shown)
    match r.settings.outcome operation with
    | some fault => (.error fault, r)
    | none => (.ok (), r.perform operation)

/- Answer what the supervisor of a link asks. -/
def answer :
    (question : Link.Question) →
      StateM Radio (Link.Answer question)
| .now => do
    return (← get).settings.clock
| .isReady => do
    return (← get).settings.ready
| .hasCredentials => do
    return (← get).settings.credentials
| .powerOn => operate .powerOn
| .powerOff => operate .powerOff
| .beginConnect => operate .beginConnect
| .disconnect => operate .disconnect
| .suppressData suppressed =>
    modify (·.note (.suppress suppressed))
| .announce technology what =>
    modify fun r =>
      r.note
        (.announced technology what
          (r.telemetry.links technology))
| .closeCloud => modify (·.note .closedCloud)
| .showLink technology status =>
    modify fun r =>
      { r with
        telemetry := r.telemetry.showLink technology status }
| .count counter =>
    modify fun r =>
      { r with telemetry := r.telemetry.count counter }

/- Collect the notes. -/
def collectNotes
    (r : Radio) : List Note × Radio :=
  (r.notes, { r with notes := [] })

end Radio

end Bench

end Fota
