import Fota.Bench.Script
import Fota.Modem.Port

/-
  This file defines the wire to a scripted modem: a byte stream
  on which every received byte has a time at which it is due. A
  line that is written in full is answered by a script.

  Key definitions include:
    * `Bench.Burst`
    * `Bench.Wire`
    * `Bench.Wire.inject`
    * `Bench.Wire.ready`
    * `Bench.Wire.read`
    * `Bench.Wire.write`

  The main statement makes a wire a port.
-/

namespace Fota

namespace Bench

------------------------------------------------------------
-- Wire
------------------------------------------------------------

/- Bytes that arrive some milliseconds from now. -/
structure Burst where
  delay : Nat
  bytes : List UInt8
deriving Repr

/-
  The errors of a wire: which operations fail, how many bytes a
  read gives at most and how many more writes work, if there is
  a limit.
-/
structure Trouble where
  readMax : Option Nat
  readFails : Bool
  readyFails : Bool
  flushFails : Bool
  writesLeft : Option Nat
deriving DecidableEq, Repr

/- A wire without errors. -/
def Trouble.none : Trouble where
  readMax := .none
  readFails := false
  readyFails := false
  flushFails := false
  writesLeft := .none

/-
  A wire with its clock. `idle` is the time that passes when it
  is found empty, `received` the bytes on their way in the order
  in which they are due, `unsent` what was written of a line and
  `sent` the lines that were written since they were last asked
  for.
-/
structure Wire where
  clock : Instant
  idle : Nat
  idle_pos : 0 < idle
  received : List (Instant × UInt8)
  trouble : Trouble
  script : Script (List Burst)
  unsent : List UInt8
  sent : List (List UInt8)
deriving Repr

namespace Wire

/-
  A wire on which nothing has happened. At least a millisecond
  passes when it is found empty.
-/
def fresh
    (clock : Instant)
    (idle : Nat)
    (script : Script (List Burst)) : Wire where
  clock := clock
  idle := max 1 idle
  idle_pos := Nat.le_max_left 1 idle
  received := []
  trouble := .none
  script := script
  unsent := []
  sent := []

/- Let some milliseconds pass. -/
def advance
    (ms : Nat)
    (w : Wire) : Wire :=
  { w with clock := w.clock.after ms }

------------------------------------------------------------
-- Receiving
------------------------------------------------------------

/- A byte is due by a time. -/
def isDueBy
    (time : Instant)
    (entry : Instant × UInt8) : Bool :=
  entry.1.toNat ≤ time.toNat

/- Send bytes on their way, behind those due no later. -/
def inject
    (burst : Burst)
    (w : Wire) : Wire :=
  let due := w.clock.after burst.delay
  { w with
    received :=
      w.received.takeWhile (isDueBy due) ++
        burst.bytes.map (fun byte => (due, byte)) ++
        w.received.dropWhile (isDueBy due) }

/- Whether the first byte on its way is due. -/
def hasDue
    (w : Wire) : Bool :=
  w.received.head?.any (isDueBy w.clock)

/- Look for bytes; time passes when there are none. -/
def look
    (w : Wire) : Bool × Wire :=
  if w.hasDue then
    (true, w)
  else
    (false, w.advance w.idle)

/- Look for bytes, unless that fails. -/
def ready
    (w : Wire) : Except PortFault Bool × Wire :=
  if w.trouble.readyFails then
    (.error .receiver, w)
  else
    let looked := w.look
    (.ok looked.1, looked.2)

/-
  The number of bytes that a read gives: as many of those that
  are due as the wire gives at once, or as many as are asked for
  at least.
-/
def readSize
    (least room : Nat)
    (w : Wire) : Nat :=
  let due := (w.received.takeWhile (isDueBy w.clock)).length
  min due (min room (max least (w.trouble.readMax.getD room)))

/- Read bytes that are due. -/
def read
    (least room : Nat)
    (w : Wire) : Except PortFault (List UInt8) × Wire :=
  if w.trouble.readFails then
    (.error .receiver, w)
  else
    let size := w.readSize least room
    (.ok ((w.received.take size).map (·.2)),
      { w with received := w.received.drop size })

------------------------------------------------------------
-- Sending
------------------------------------------------------------

/- The line that was written, if its end was. -/
def finishedLine?
    (unsent : List UInt8) : Option (List UInt8) :=
  if Port.lineEnd.isSuffixOf unsent then
    some (unsent.take (unsent.length - Port.lineEnd.length))
  else
    none

/- Send off a line, and have it answered if someone listens. -/
def sendOff
    (answered : Bool)
    (line : List UInt8)
    (w : Wire) : Wire :=
  let w := { w with unsent := [], sent := w.sent ++ [line] }
  if answered then
    let answer := w.script.answer? line
    let bursts := answer.1.getD []
    bursts.foldl
      (fun w burst => w.inject burst)
      { w with script := answer.2 }
  else
    w

/- Write bytes, for a modem that answers or not. -/
def write
    (answered : Bool)
    (bytes : List UInt8)
    (w : Wire) : Except PortFault Nat × Wire :=
  match w.trouble.writesLeft with
  | some 0 => (.error .sender, w)
  | left =>
      let unsent := w.unsent ++ bytes
      let w :=
        { w with
          trouble.writesLeft := left.map (· - 1)
          unsent := unsent }
      let w :=
        match finishedLine? unsent with
        | none => w
        | some line => w.sendOff answered line
      (.ok bytes.length, w)

/- Send off what was written, unless that fails. -/
def flush
    (w : Wire) : Except PortFault Unit × Wire :=
  if w.trouble.flushFails then
    (.error .sender, w)
  else
    (.ok (), w)

/- Collect the lines that were sent. -/
def collectSent
    (w : Wire) : List (List UInt8) × Wire :=
  (w.sent, { w with sent := [] })

------------------------------------------------------------
-- A Wire as a Port
------------------------------------------------------------

variable
  {w w' : Wire}
  {least room : Nat}

/- Looking for bytes adds none. -/
theorem received_look
    (w : Wire) :
    w.look.2.received = w.received := by
  unfold look
  split <;> rfl

/- When a byte is due, a read gives some. -/
theorem readSize_pos
    (hRoom : 0 < room)
    (hDue : w.hasDue = true) :
    0 < w.readSize 1 room ∧ w.received ≠ [] := by
  unfold hasDue at hDue
  cases hReceived : w.received with
  | nil =>
      rw [hReceived] at hDue
      cases hDue
  | cons entry rest =>
      rw [hReceived] at hDue
      have hFirst : isDueBy w.clock entry = true := hDue
      refine ⟨?_, List.cons_ne_nil entry rest⟩
      unfold readSize
      rw [hReceived, List.takeWhile_cons_of_pos hFirst,
        List.length_cons]
      dsimp only
      omega

/- A read that gives bytes leaves fewer on their way. -/
theorem length_received_read
    {b : UInt8}
    {bs : List UInt8}
    (hRead : w.read least room = (.ok (b :: bs), w')) :
    w'.received.length < w.received.length := by
  unfold read at hRead
  split at hRead
  · simp at hRead
  · simp only [Prod.mk.injEq, Except.ok.injEq] at hRead
    have hLength := congrArg List.length hRead.1
    rw [← hRead.2]
    simp only [List.length_map, List.length_take,
      List.length_cons] at hLength
    simp only [List.length_drop]
    omega

/- A read that gives no bytes was from a wire with none due. -/
theorem read_ne_nil
    (hRoom : 0 < room)
    (hDue : w.hasDue = true) :
    w.read 1 room ≠ (.ok [], w') := by
  have hSize := readSize_pos hRoom hDue
  unfold read
  split
  · simp
  · rw [Ne, Prod.mk.injEq, Except.ok.injEq,
      List.map_eq_nil_iff, List.take_eq_nil_iff]
    rintro ⟨hZero | hNone, -⟩
    · omega
    · exact hSize.2 hNone

/- Reading takes no time. -/
theorem clock_read
    (least room : Nat)
    (w : Wire) :
    (w.read least room).2.clock = w.clock := by
  unfold read
  split <;> rfl

/- A write that works takes all bytes. -/
theorem count_of_write
    {answered : Bool}
    {bytes : List UInt8}
    {count : Nat}
    (hWrite : w.write answered bytes = (.ok count, w')) :
    count = bytes.length := by
  unfold write at hWrite
  split at hWrite
  · cases hWrite
  · exact (Except.ok.inj (congrArg Prod.fst hWrite)).symm

/- Time passes when nothing is due, as long as it can. -/
theorem clock_advance
    (hEarly : (w.advance w.idle).clock.toNat < Instant.last) :
    w.clock.toNat < (w.advance w.idle).clock.toNat := by
  have hIdle := w.idle_pos
  have hAfter := w.clock.toNat_after w.idle
  unfold advance at hEarly ⊢
  dsimp only at hEarly ⊢
  omega

/-
  A wire is a port. Asked for bytes that are due, it gives one at
  least; a port that gave none of them would be asked again at
  the same time, without an end.
-/
@[reducible]
def clocked : Port.Clocked Wire where
  now := clock
  ready := ready
  read := read 1
  write := write true
  flush := flush
  backlog := fun w => w.received.length
  backlog_ready := by
    intro w w' hReady
    unfold ready at hReady
    split at hReady
    · simp at hReady
    · simp only [Prod.mk.injEq] at hReady
      exact Nat.le_of_eq (by rw [← hReady.2, received_look])
  backlog_read := by
    intro w w' room b bs hRead
    exact length_received_read hRead
  now_idle := by
    intro w w' hReady hEarly
    unfold ready look at hReady
    split at hReady
    · cases hReady
    · split at hReady <;> cases hReady
      exact clock_advance hEarly
  read_ne_nil := by
    intro w w₁ w' room hRoom hReady
    unfold ready look at hReady
    split at hReady
    · cases hReady
    · split at hReady <;> cases hReady
      next hDue => exact read_ne_nil hRoom hDue
  now_read := by
    intro w w₁ w' room b bs hReady hRead
    have hClock := clock_read 1 room w₁
    unfold ready look at hReady
    split at hReady
    · cases hReady
    · split at hReady <;> cases hReady
      rw [hRead] at hClock
      change w'.clock = w.clock at hClock
      exact Nat.le_of_eq (by rw [hClock])
  write_some := by
    intro w w' b bs count hWrite
    rw [count_of_write hWrite, List.length_cons]
    exact ⟨Nat.succ_pos _, Nat.le_refl _⟩

instance : Port Wire :=
  clocked.port

end Wire

end Bench

end Fota
