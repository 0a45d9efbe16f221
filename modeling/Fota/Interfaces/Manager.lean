import Fota.Fault
import Fota.Interfaces.Table

/-
  This file defines the network manager, which sums up all
  interfaces in one level and asks the network stack to bring
  them up or down.

  Key definitions include:
    * `Interfaces.Level`
    * `Interfaces.Command`
    * `Interfaces.Request`
    * `Interfaces.Manager`
    * `Interfaces.Manager.command`
    * `Interfaces.Manager.report`
    * `Interfaces.Manager.drive`
-/

namespace Fota

namespace Interfaces

------------------------------------------------------------
-- Levels
------------------------------------------------------------

/-
  The level of networking, from disabled by an administrator to
  having an address.
-/
inductive Level where
| disabled
| down
| requestUp
| up
| linkUp
| configured
| requestDown
deriving DecidableEq, Repr

namespace Level

/- The name of a level. -/
def name : Level → String
| disabled => "disabled"
| down => "iface_down"
| requestUp => "iface_request_up"
| up => "iface_up"
| linkUp => "iface_link_up"
| configured => "ip_configured"
| requestDown => "iface_request_down"

/- The level that the rows of a table back. -/
def ofTable
    (table : Table) : Level :=
  if table.anyAddress then
    configured
  else if table.anyLink then
    linkUp
  else if table.anyUp then
    up
  else
    requestUp

end Level

------------------------------------------------------------
-- Commands and Requests
------------------------------------------------------------

/- The commands that a manager takes. -/
inductive Command where
| enable
| disable
| activate
| deactivate
deriving DecidableEq, Repr

/- A request to the network stack to bring an interface up or down. -/
structure Request where
  index : UInt8
  up : Bool
deriving DecidableEq, Repr

/- The requests that bring every managed interface up. -/
def requestsUp
    (table : Table) : List Request :=
  table.managed.map (fun row => ⟨row.index, true⟩)

/- The requests that bring down the interfaces that are up. -/
def requestsDown
    (table : Table) : List Request :=
  (table.managed.filter (·.adminUp)).map
    (fun row => ⟨row.index, false⟩)

/-
  The requests that the queue to the network stack takes: as
  many as the table has room for rows, in order. What comes
  after them is dropped.
-/
def queued
    (requests : List Request) : List Request :=
  requests.take Table.room

------------------------------------------------------------
-- Manager
------------------------------------------------------------

/- The level of networking and the table that backs it. -/
structure Manager where
  level : Level
  table : Table
deriving DecidableEq, Repr

namespace Manager

/- A manager that was never enabled. -/
def initial : Manager where
  level := .disabled
  table := []

/- Networking has an address. -/
def isConfigured
    (m : Manager) : Bool :=
  m.level = .configured

/- Let go of the interfaces, at once or when they report it. -/
def release
    (m : Manager) : Manager × List Request :=
  if requestsDown m.table = [] then
    ({ m with level := .down }, [])
  else
    ({ m with level := .requestDown }, requestsDown m.table)

/- Ask for every managed interface. -/
def acquire
    (m : Manager) : Manager × List Request :=
  if m.table.anyUp then
    ({ m with level := .up }, requestsUp m.table)
  else
    ({ m with level := .requestUp }, requestsUp m.table)

/-
  Take a command. A command that does not suit the level is
  refused and leaves the manager as it is.
-/
def command
    (c : Command)
    (m : Manager) :
    Except Fault (Manager × List Request) :=
  match m.level, c with
  | .disabled, .enable => .ok ({ m with level := .down }, [])
  | .down, .disable => .ok ({ m with level := .disabled }, [])
  | .down, .activate => .ok m.acquire
  | .down, .deactivate => .ok (m, [])
  | .requestUp, .deactivate => .ok m.release
  | .up, .deactivate => .ok m.release
  | .linkUp, .deactivate => .ok m.release
  | .configured, .deactivate => .ok m.release
  | .requestDown, .deactivate => .ok (m, [])
  | _, _ => .error .invalidState

/- The level after an event that the table already shows. -/
def levelAfter
    (event : Event)
    (m : Manager) : Level :=
  match m.level, event with
  | .requestUp, .admin _ true =>
      if m.table.anyUp then .up else .requestUp
  | .up, .link _ true =>
      if m.table.anyLink then .linkUp else .up
  | .up, .admin _ false => .ofTable m.table
  | .up, .removed _ => .ofTable m.table
  | .linkUp, .address _ true =>
      if m.table.anyAddress then .configured else .linkUp
  | .linkUp, .link _ false => .ofTable m.table
  | .linkUp, .admin _ false => .ofTable m.table
  | .linkUp, .removed _ => .ofTable m.table
  | .configured, .address _ false => .ofTable m.table
  | .configured, .link _ false => .ofTable m.table
  | .configured, .admin _ false => .ofTable m.table
  | .configured, .removed _ => .ofTable m.table
  | .requestDown, .admin _ false =>
      if m.table.anyUp then .requestDown else .down
  | .requestDown, .removed _ =>
      if m.table.anyUp then .requestDown else .down
  | level, _ => level

/- The requests that an event at a level calls for. -/
def requestsAfter
    (level : Level)
    (event : Event) : List Request :=
  match level, event with
  | .requestUp, .added index false => [⟨index, true⟩]
  | _, _ => []

/- Take a report of the network stack. -/
def report
    (event : Event)
    (m : Manager) : Manager × List Request :=
  let seen := { m with table := m.table.record event }
  ({ seen with level := seen.levelAfter event },
    requestsAfter m.level event)

------------------------------------------------------------
-- Driving the Network Stack
------------------------------------------------------------

/- What reaches a manager from outside. -/
inductive Input where
| command (c : Command)
| report (event : Event)
deriving DecidableEq, Repr

/- Take an input: the result, the manager and its requests. -/
def step
    (input : Input)
    (m : Manager) :
    Except Fault Unit × Manager × List Request :=
  match input with
  | .report event =>
      let taken := m.report event
      (.ok (), taken.1, queued taken.2)
  | .command c =>
      match m.command c with
      | .ok taken => (.ok (), taken.1, queued taken.2)
      | .error fault => (.error fault, m, [])

/-
  Take an input and hand the requests to the network stack. A
  request that the stack refuses has no further effect.
-/
def drive
    {k : Type → Type}
    [Monad k]
    (control : Request → k (Except Fault Unit))
    (input : Input)
    (m : Manager) : k (Except Fault Unit × Manager) := do
  let (result, next, requests) := m.step input
  requests.forM (fun request => discard (control request))
  return (result, next)

end Manager

end Interfaces

end Fota
