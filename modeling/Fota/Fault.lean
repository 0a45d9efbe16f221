/-
  This file defines the faults that operations report, with
  the two spellings of each.

  Key definitions include:
    * `Fault`
    * `Fault.all`
    * `Fault.name`
    * `Fault.message`
-/

namespace Fota

------------------------------------------------------------
-- Faults
------------------------------------------------------------

/-
  A fault is the cause for which an operation was refused or
  did not complete.
-/
inductive Fault where
| invalidArgument
| invalidState
| notFound
| notSupported
| timeout
| io
| limitExceeded
| badData
deriving DecidableEq, Repr

namespace Fault

/- Every fault, in the order of its declaration. -/
def all : List Fault :=
  [invalidArgument, invalidState, notFound, notSupported,
    timeout, io, limitExceeded, badData]

/- The short name of a fault. -/
def name : Fault → String
| invalidArgument => "invalid_argument"
| invalidState => "invalid_state"
| notFound => "not_found"
| notSupported => "not_supported"
| timeout => "timeout"
| io => "io"
| limitExceeded => "limit_exceeded"
| badData => "bad_data"

/- The sentence that explains a fault. -/
def message : Fault → String
| invalidArgument => "invalid argument"
| invalidState => "operation not allowed in the current state"
| notFound => "entry not found"
| notSupported => "operation not supported"
| timeout => "operation timed out"
| io => "storage or transport I/O failed"
| limitExceeded => "data exceeds capacity"
| badData => "stored data is corrupt"

/- The fault with a given short name. -/
def ofName?
    (name : String) : Option Fault :=
  all.find? (fun fault => fault.name = name)

end Fault

end Fota
