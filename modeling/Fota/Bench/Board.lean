import Fota.Bench.Wire
import Fota.Board.Hardware

/-
  This file defines a simulated board: a wire to a scripted
  modem whose supply follows the power key, and a flash memory.
  The modem answers only while its supply is up.

  Key definitions include:
    * `Bench.Board`
    * `Bench.Board.isSupplyUp`
    * `Bench.Board.settle`
    * `Bench.Board.releaseKey`

  The main statement makes a simulated board hardware.
-/

namespace Fota

namespace Bench

------------------------------------------------------------
-- Board
------------------------------------------------------------

/- A change of the supply that is still to come. -/
structure SupplyChange where
  due : Instant
  up : Bool
deriving DecidableEq, Repr

/-
  A simulated board. `onAfter` and `offAfter` are the times from
  the release of the key to the change of the supply, none when
  the modem does not react; `presses` are the lengths of the
  presses since they were last asked for.
-/
structure Board where
  wire : Wire
  memory : Flash
  supply : Bool
  change : Option SupplyChange
  onAfter : Option Nat
  offAfter : Option Nat
  pressedAt : Option Instant
  presses : List Nat
deriving Repr

namespace Board

/- A board on which nothing has happened. -/
def fresh
    (wire : Wire)
    (capacity : Nat)
    (supply : Bool)
    (onAfter offAfter : Option Nat) : Board where
  wire := wire
  memory := .erased capacity
  supply := supply
  change := none
  onAfter := onAfter
  offAfter := offAfter
  pressedAt := none
  presses := []

------------------------------------------------------------
-- Supply
------------------------------------------------------------

/- The supply, with the change that is due taken into account. -/
def isSupplyUp
    (b : Board) : Bool :=
  match b.change with
  | some change =>
      if change.due.toNat ≤ b.wire.clock.toNat then
        change.up
      else
        b.supply
  | none => b.supply

/- The board after the change of the supply that is due. -/
def settle
    (b : Board) : Board :=
  match b.change with
  | some change =>
      if change.due.toNat ≤ b.wire.clock.toNat then
        { b with supply := change.up, change := none }
      else
        b
  | none => b

/- Switch the supply by hand. -/
def switchSupply
    (up : Bool)
    (b : Board) : Board :=
  { b with supply := up, change := none }

------------------------------------------------------------
-- Key
------------------------------------------------------------

/- Press the key. -/
def pressKey
    (b : Board) : Board :=
  { b with pressedAt := some b.wire.clock }

/- The change of the supply that a press brings about. -/
def reaction
    (b : Board) : Option SupplyChange :=
  let up := b.isSupplyUp
  let wait := if up then b.offAfter else b.onAfter
  wait.map
    (fun ms => { due := b.wire.clock.after ms, up := !up })

/- Release the key, if it was pressed. -/
def releaseKey
    (b : Board) : Board :=
  match b.pressedAt with
  | none => b
  | some since =>
      { b.settle with
        change := b.reaction
        pressedAt := none
        presses := b.presses ++ [b.wire.clock.since since] }

------------------------------------------------------------
-- Events
------------------------------------------------------------

/-
  The clock and the supply of a board, and what happened on it
  since that was last asked for.
-/
structure Events where
  clock : Instant
  supply : Bool
  presses : List Nat
  sent : List (List UInt8)
deriving DecidableEq, Repr

/- Collect what happened on the board. -/
def collectEvents
    (b : Board) : Events × Board :=
  let (sent, wire) := b.wire.collectSent
  ({ clock := wire.clock
     supply := b.isSupplyUp
     presses := b.presses
     sent := sent },
    { b with wire := wire, presses := [] })

------------------------------------------------------------
-- A Board as Hardware
------------------------------------------------------------

/- Let something happen on the wire. -/
def onWire
    {α : Type}
    (act : Wire → α × Wire)
    (b : Board) : α × Board :=
  let acted := act b.wire
  (acted.1, { b with wire := acted.2 })

/- Let some milliseconds pass. -/
def advance
    (ms : Nat)
    (b : Board) : Board :=
  { b with wire := b.wire.advance ms }

/- Look for bytes; on a board that does not fail. -/
def ready
    (b : Board) : Except PortFault Bool × Board :=
  let looked := b.wire.look
  (.ok looked.1, { b with wire := looked.2 })

/- A read on the board is one on its wire. -/
theorem read_onWire
    {b b' : Board}
    {room : Nat}
    {bytes : List UInt8}
    (hRead : b.onWire (Wire.read 1 room) = (.ok bytes, b')) :
    b.wire.read 1 room = (.ok bytes, b'.wire) := by
  unfold onWire at hRead
  rw [Prod.mk.injEq] at hRead
  rw [← hRead.1, ← hRead.2]

/- A board is a port as its wire is one. -/
@[reducible]
def clocked : Port.Clocked Board where
  now := fun b => b.wire.clock
  ready := ready
  read := fun room => onWire (Wire.read 1 room)
  write := fun bytes b =>
    b.onWire (Wire.write b.isSupplyUp bytes)
  flush := onWire Wire.flush
  backlog := fun b => b.wire.received.length
  backlog_ready := by
    intro b b' hReady
    simp only [ready, Prod.mk.injEq] at hReady
    rw [← hReady.2]
    simp only [Wire.received_look, Nat.le_refl]
  backlog_read := by
    intro b b' room byte bytes hRead
    exact Wire.length_received_read (read_onWire hRead)
  now_idle := by
    intro b b' hReady hEarly
    unfold ready Wire.look at hReady
    split at hReady <;> cases hReady
    exact Wire.clock_advance hEarly
  read_ne_nil := by
    intro b b₁ b' room hRoom hReady hRead
    unfold ready Wire.look at hReady
    split at hReady <;> cases hReady
    next hDue =>
      exact Wire.read_ne_nil hRoom hDue (read_onWire hRead)
  now_read := by
    intro b b₁ b' room byte bytes hReady hRead
    have hClock := b₁.wire.clock_read 1 room
    rw [read_onWire hRead] at hClock
    unfold ready Wire.look at hReady
    split at hReady <;> cases hReady
    change b'.wire.clock = b.wire.clock at hClock
    exact Nat.le_of_eq (by rw [hClock])
  write_some := by
    intro b b' byte bytes count hWrite
    unfold onWire at hWrite
    rw [Prod.mk.injEq] at hWrite
    have hCount :=
      Wire.count_of_write (Prod.ext hWrite.1 rfl)
    rw [hCount, List.length_cons]
    exact ⟨Nat.succ_pos _, Nat.le_refl _⟩

instance : Port Board :=
  clocked.port

instance : Hardware Board where
  delay := fun ms => advance ms.toNat
  pressKey := pressKey
  releaseKey := releaseKey
  isSupplyUp := isSupplyUp
  flash := memory
  setFlash := fun flash b => { b with memory := flash }
  now_delay := by
    intro ms b
    exact Nat.le_refl _

end Board

end Bench

end Fota
