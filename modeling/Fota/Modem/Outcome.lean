/-
  This file defines the outcome of one command sent to the
  modem and the reply that comes with it.

  Key definitions include:
    * `Outcome`
    * `Outcome.isOk`
    * `Outcome.name`
    * `Reply`
-/

namespace Fota

------------------------------------------------------------
-- Outcomes
------------------------------------------------------------

/- A command is accepted, refused or left unanswered. -/
inductive Outcome where
| ok
| error
| timeout
deriving DecidableEq, Repr

namespace Outcome

/- Every outcome, in the order of its declaration. -/
def all : List Outcome :=
  [ok, error, timeout]

/- The command was accepted. -/
def isOk : Outcome → Bool
| ok => true
| error => false
| timeout => false

/- The name of an outcome. -/
def name : Outcome → String
| ok => "ok"
| error => "error"
| timeout => "timeout"

/- The outcome with a given name. -/
def ofName?
    (name : String) : Option Outcome :=
  all.find? (fun outcome => outcome.name = name)

end Outcome

------------------------------------------------------------
-- Replies
------------------------------------------------------------

/-
  A reply is the outcome of a command together with the lines
  that the modem sent before it, in order.
-/
structure Reply where
  outcome : Outcome
  lines : List String
deriving DecidableEq, Repr

namespace Reply

/- The reply to a command that could not be sent. -/
def refused : Reply where
  outcome := .error
  lines := []

end Reply

end Fota
