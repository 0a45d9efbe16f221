/-
  This file defines the table of interfaces that the network
  manager keeps from the reports of the network stack.

  Key definitions include:
    * `Interfaces.Row`
    * `Interfaces.Table`
    * `Interfaces.Event`
    * `Interfaces.Table.record`
    * `Interfaces.Table.managed`
-/

namespace Fota

namespace Interfaces

------------------------------------------------------------
-- Rows
------------------------------------------------------------

/- What is known about one interface. -/
structure Row where
  index : UInt8
  loopback : Bool
  adminUp : Bool
  linkUp : Bool
  hasAddress : Bool
deriving DecidableEq, Repr

namespace Row

/- An interface of which nothing has been reported. -/
def fresh
    (index : UInt8)
    (loopback : Bool) : Row where
  index := index
  loopback := loopback
  adminUp := false
  linkUp := false
  hasAddress := false

/- Note the administrative state; down takes all else along. -/
def setAdmin
    (up : Bool)
    (row : Row) : Row :=
  { row with
    adminUp := up
    linkUp := up && row.linkUp
    hasAddress := up && row.hasAddress }

/- Note the state of the link; down takes the address along. -/
def setLink
    (up : Bool)
    (row : Row) : Row :=
  { row with
    linkUp := up
    hasAddress := up && row.hasAddress }

/- Note whether there is an address. -/
def setAddress
    (configured : Bool)
    (row : Row) : Row :=
  { row with hasAddress := configured }

end Row

------------------------------------------------------------
-- Events
------------------------------------------------------------

/- What the network stack reports about one interface. -/
inductive Event where
| added (index : UInt8) (loopback : Bool)
| removed (index : UInt8)
| admin (index : UInt8) (up : Bool)
| link (index : UInt8) (up : Bool)
| address (index : UInt8) (configured : Bool)
| hardwareAddress (index : UInt8)
deriving DecidableEq, Repr

------------------------------------------------------------
-- Tables
------------------------------------------------------------

/- The rows of the table, in the order in which they came. -/
abbrev Table :=
  List Row

namespace Table

/- The number of rows that a table has room for. -/
def room : Nat :=
  8

/- Whether a table has a row with the index. -/
def tracks
    (table : Table)
    (index : UInt8) : Bool :=
  table.any (fun row => row.index = index)

/- Change the row with the index, if there is one. -/
def change
    (index : UInt8)
    (edit : Row → Row)
    (table : Table) : Table :=
  table.map
    (fun row => if row.index = index then edit row else row)

/-
  Record an event. An interface is added once, and only as long
  as there is room.
-/
def record
    (event : Event)
    (table : Table) : Table :=
  match event with
  | .added index loopback =>
      if table.tracks index ∨ room ≤ table.length then
        table
      else
        table ++ [.fresh index loopback]
  | .removed index =>
      table.filter (fun row => row.index ≠ index)
  | .admin index up => table.change index (.setAdmin up)
  | .link index up => table.change index (.setLink up)
  | .address index configured =>
      table.change index (.setAddress configured)
  | .hardwareAddress _ => table

/- The rows that the manager steers: all but loopbacks. -/
def managed
    (table : Table) : List Row :=
  table.filter (fun row => ¬ row.loopback)

/- Some managed interface is administratively up. -/
def anyUp
    (table : Table) : Bool :=
  table.managed.any (·.adminUp)

/- Some managed interface has its link up. -/
def anyLink
    (table : Table) : Bool :=
  table.managed.any (·.linkUp)

/- Some managed interface has an address. -/
def anyAddress
    (table : Table) : Bool :=
  table.managed.any (·.hasAddress)

end Table

end Interfaces

end Fota
