import Fota.Clock

/-
  This file defines the listening mode of a link, in which the
  device waits to be set up. Requests are kept until the next
  update, which acts on them.

  Key definitions include:
    * `Listening`
    * `Listening.requestEnter`
    * `Listening.requestExit`
    * `Listening.update`
-/

namespace Fota

------------------------------------------------------------
-- Listening Mode
------------------------------------------------------------

/- A change of the listening mode. -/
inductive ListeningChange where
| started
| stopped
deriving DecidableEq, Repr

/- The name of a change. -/
def ListeningChange.name : ListeningChange → String
| started => "Started"
| stopped => "Stopped"

/-
  The listening mode: whether it is on, which request is kept,
  since when it is on and after how long it ends by itself. A
  timeout of zero keeps it on until it is asked to end.
-/
structure Listening where
  active : Bool
  enterRequested : Bool
  exitRequested : Bool
  startedAt : Instant
  timeout : UInt32
deriving DecidableEq, Repr

namespace Listening

/- A listening mode that is off. -/
def off
    (timeout : UInt32) : Listening where
  active := false
  enterRequested := false
  exitRequested := false
  startedAt := .ofNat 0
  timeout := timeout

/- Ask for listening to start. -/
def requestEnter
    (l : Listening) : Listening :=
  { l with
    enterRequested := true
    exitRequested := false }

/- Ask for listening to end, if it is on or about to be. -/
def requestExit
    (l : Listening) : Listening :=
  { l with
    enterRequested := false
    exitRequested := l.active || l.enterRequested }

/- Listening is on or about to be. -/
def isEngaged
    (l : Listening) : Bool :=
  l.active || l.enterRequested

/- Listening has lasted for its whole timeout. -/
def TimedOut
    (l : Listening)
    (now : Instant) : Prop :=
  0 < l.timeout ∧ l.startedAt.Elapsed l.timeout now

instance
    (l : Listening)
    (now : Instant) :
    Decidable (l.TimedOut now) := by
  unfold TimedOut
  infer_instance

/- Start listening now. -/
def start
    (now : Instant)
    (l : Listening) : Listening :=
  { l with
    active := true
    enterRequested := false
    startedAt := now }

/-
  Act on the requests since the last update. A request to enter
  that comes while listening is on has no effect.
-/
def update
    (now : Instant)
    (l : Listening) : Option ListeningChange × Listening :=
  if l.enterRequested ∧ ¬ l.active then
    (some .started, l.start now)
  else if ¬ l.active then
    (none, { l with exitRequested := false })
  else if l.exitRequested ∨ l.TimedOut now then
    (some .stopped,
      { l with
        active := false
        enterRequested := false
        exitRequested := false })
  else
    (none, { l with enterRequested := false })

end Listening

end Fota
