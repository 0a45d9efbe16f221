import Fota.Bench.Rounds
import Fota.Bench.World
import Fota.Update.Tick

/-
  This file defines sessions: an updater at work in a scripted
  world, and runs of its ticks.

  Key definitions include:
    * `Updater.Summary`
    * `Bench.Session`
    * `Bench.Session.ask`
    * `Bench.Session.run`
-/

namespace Fota

------------------------------------------------------------
-- Summaries
------------------------------------------------------------

/- What a bench shows of an updater. -/
structure Updater.Summary where
  stage : Stage
  status : Status
  shown : Status
  cooling : Bool
  installed : UInt32
  replaced : UInt32
  wanted : UInt32
  availability : Availability
  ownPath : Bool
deriving DecidableEq, Repr

/- The summary of an updater. -/
def Updater.summary
    (u : Updater) : Summary where
  stage := u.stage
  status := u.status
  shown := u.shown
  cooling := u.cooldown.isSome
  installed := u.checkpoint.installed
  replaced := u.checkpoint.replaced
  wanted := u.checkpoint.wanted
  availability := u.checkpoint.availability
  ownPath := u.checkpoint.ownPath

namespace Bench

------------------------------------------------------------
-- Sessions
------------------------------------------------------------

/- An updater in a scripted world. -/
structure Session where
  updater : Updater
  world : World

namespace Session

/- Ask the updater for something that it may refuse. -/
def ask
    (act : Updater → Update.Talk (Except Fault Updater))
    (s : Session) : Except Fault Unit × Session :=
  match s.world.talk (act s.updater) with
  | (.ok updater, world) => (.ok (), ⟨updater, world⟩)
  | (.error fault, world) => (.error fault, ⟨s.updater, world⟩)

------------------------------------------------------------
-- Runs
------------------------------------------------------------

/- What is reported of a tick in which something happened. -/
structure Report where
  tick : Nat
  clock : Instant
  result : Except Fault Unit
  summary : Updater.Summary
  notes : List World.Note

/- One tick, with the report if something happened. -/
def round
    (goal : Option Stage)
    (tick : Nat)
    (s : Session) : Round Session Report :=
  let (result, after) := s.ask Updater.tick
  let (notes, world) := after.world.collectNotes
  let summary := after.updater.summary
  let report : Report :=
    { tick := tick
      clock := world.settings.clock
      result := result
      summary := summary
      notes := notes }
  let uneventful :=
    s.updater.summary = summary ∧ notes = [] ∧
      result.toBool
  { state := { after with world := world }
    report := if uneventful then none else some report
    verdict :=
      if goal = some summary.stage then .atGoal else .goOn }

/- Let some milliseconds pass. -/
def advance
    (ms : Nat)
    (s : Session) : Session :=
  { s with world := s.world.advance ms }

/- At most some ticks, until a stage is reached. -/
def run
    (ticks pause : Nat)
    (goal : Option Stage)
    (s : Session) : Run Session Report :=
  repeatRounds (round goal) (advance pause) 0 [] s ticks

end Session

end Bench

end Fota
