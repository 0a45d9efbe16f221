import Fota.Bench.Board
import Fota.Bench.Rounds
import Fota.Bench.Session
import Fota.Board.Firmware

/-
  This file defines rigs: a simulated board, bare or with the
  firmware that runs on it, and runs of the firmware's ticks.

  Key definitions include:
    * `Bench.Rig`
    * `Bench.Rig.boot`
    * `Bench.Rig.request`
    * `Bench.Rig.run`
-/

namespace Fota

namespace Bench

------------------------------------------------------------
-- Rigs
------------------------------------------------------------

/- A simulated board, bare or with running firmware. -/
inductive Rig where
| bare (base : Base Board)
| running (firmware : Firmware Board)

namespace Rig

/- A rig without firmware on a board. -/
def fresh
    (board : Board) : Rig :=
  .bare
    { hardware := board
      mailbox := .empty
      cloud := .fresh false
      telemetry := .initial }

/- What of the rig outlasts the firmware. -/
def base : Rig → Base Board
| bare base => base
| running f => f.device.base

/- Change what outlasts the firmware. -/
def setBase
    (base : Base Board) : Rig → Rig
| bare _ => .bare base
| running f =>
    .running { f with device := { f.device with base := base } }

/- Change the board. -/
def setBoard
    (board : Board)
    (rig : Rig) : Rig :=
  rig.setBase { rig.base with hardware := board }

/- Collect what happened on the board. -/
def collectEvents
    (rig : Rig) : Board.Events × Rig :=
  let (events, board) := rig.base.hardware.collectEvents
  (events, rig.setBoard board)

------------------------------------------------------------
-- Summaries
------------------------------------------------------------

/- What a bench shows of running firmware. -/
structure Summary where
  updater : Updater.Summary
  safeMode : Bool
  status : LinkStatus
  connecting : Bool
  connected : Bool
  listening : Bool
  ready : Bool
  power : PowerState
  wantsRegistration : Bool
deriving DecidableEq, Repr

/- The summary of the firmware, if it runs. -/
def summary? : Rig → Option Summary
| bare _ => none
| running f =>
    let link := f.device.link
    some
      { updater := f.updater.summary
        safeMode := f.device.safeMode
        status := link.status
        connecting := link.connecting
        connected := link.connected
        listening := link.listening.active
        ready := link.isReadyFor .cellular
        power := link.powerFor .cellular
        wantsRegistration := f.device.sara.wantsRegistration }

------------------------------------------------------------
-- Firmware on a Rig
------------------------------------------------------------

/- What became of something that firmware was asked for. -/
inductive Result
    (α : Type) where
| reset
| done (result : α)

/- The rig that a request leaves. -/
def ofOutcome :
    Firmware.Outcome Board → Result (Except Fault Unit) × Rig
| .reset base => (.reset, .bare base)
| .done result f => (.done result, .running f)

/- Ask the updater for something that it may refuse. -/
def request
    (ask : Updater → Update.Talk (Except Fault Updater))
    (f : Firmware Board) : Result (Except Fault Unit) × Rig :=
  ofOutcome (f.request ask)

/- Let the firmware talk with its device. -/
def talk
    {α : Type}
    (dialogue : Update.Talk α)
    (f : Firmware Board) : Result α × Rig :=
  match Firmware.talk dialogue f.device with
  | (.error _, device) => (.reset, .bare device.base)
  | (.ok a, device) =>
      (.done a, .running { f with device := device })

/- Let the device act. -/
def act
    {α : Type}
    (act : StateM (Device Board) α)
    (f : Firmware Board) : Result α × Rig :=
  let (a, f) := f.withDevice act
  (.done a, .running f)

/- What became of a start; `connected` is of the link order. -/
inductive Booted where
| refused (fault : Fault)
| reset
| running (connected : Option (Except Fault Unit))

/- Start firmware on the board; what ran before is dropped. -/
def boot
    (start : Firmware.Start)
    (rig : Rig) : Booted × Rig :=
  match Firmware.boot start rig.base with
  | .refused fault base => (.refused fault, .bare base)
  | .reset base => (.reset, .bare base)
  | .running f connected => (.running connected, .running f)

------------------------------------------------------------
-- Runs
------------------------------------------------------------

/- What is reported of a tick in which something happened. -/
structure Report where
  tick : Nat
  result : Result (Except Fault Unit)
  summary : Option Summary
  events : Board.Events

/- A request was carried out. -/
def Result.IsOk : Result (Except Fault Unit) → Prop
| reset => False
| done result => result.toBool = true

instance
    (result : Result (Except Fault Unit)) :
    Decidable result.IsOk := by
  cases result <;> unfold Result.IsOk <;> infer_instance

/- What becomes of a run that left a rig. -/
def verdict
    (goal : Option Stage) : Rig → Verdict
| bare _ => .reset
| running f =>
    if goal = some f.updater.stage then .atGoal else .goOn

/- One tick, with the report if something happened. -/
def tick
    (goal : Option Stage)
    (number : Nat)
    (rig : Rig) : Round Rig Report :=
  match rig with
  | bare _ => ⟨rig, none, .reset⟩
  | running f =>
      let (result, after) := ofOutcome f.tick
      let (events, after) := after.collectEvents
      let report : Report :=
        { tick := number
          result := result
          summary := after.summary?
          events := events }
      let uneventful :=
        rig.summary? = after.summary? ∧ events.sent = [] ∧
          events.presses = [] ∧ result.IsOk
      { state := after
        report := if uneventful then none else some report
        verdict := after.verdict goal }

/- Let some milliseconds pass. -/
def advance
    (ms : Nat)
    (rig : Rig) : Rig :=
  rig.setBoard (rig.base.hardware.advance ms)

/- At most some ticks, until a stage is reached or a reset. -/
def run
    (ticks pause : Nat)
    (goal : Option Stage)
    (rig : Rig) : Run Rig Report :=
  repeatRounds (tick goal) (advance pause) 0 [] rig ticks

end Rig

end Bench

end Fota
