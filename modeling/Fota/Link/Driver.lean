import Fota.Clock
import Fota.Dialogue
import Fota.Fault
import Fota.Telemetry

/-
  This file defines what the supervisor of a link asks of its
  surroundings: the radio that it drives, the sink of its
  announcements and telemetry.

  Key definitions include:
    * `Link.Question`
    * `Link.Answer`
    * `Link.Talk`
-/

namespace Fota

namespace Link

------------------------------------------------------------
-- Questions
------------------------------------------------------------

/-
  What a supervisor asks. The first group drives the radio, the
  second informs the surroundings.
-/
inductive Question where
| now
| isReady
| hasCredentials
| powerOn
| powerOff
| beginConnect
| disconnect
| suppressData (suppressed : Bool)
| announce (technology : Technology) (what : Announcement)
| closeCloud
| showLink (technology : Technology) (status : LinkStatus)
| count (counter : Counter)
deriving DecidableEq, Repr

/- The type of the answers to a question. -/
@[reducible]
def Answer : Question → Type
| .now => Instant
| .isReady => Bool
| .hasCredentials => Bool
| .powerOn => Except Fault Unit
| .powerOff => Except Fault Unit
| .beginConnect => Except Fault Unit
| .disconnect => Except Fault Unit
| .suppressData _ => Unit
| .announce _ _ => Unit
| .closeCloud => Unit
| .showLink _ _ => Unit
| .count _ => Unit

/- A dialogue of a supervisor with its surroundings. -/
abbrev Talk :=
  Dialogue Question Answer

namespace Talk

/- The reading of the clock. -/
def now : Talk Instant :=
  .ask .now .done

/- Whether the radio carries data. -/
def isReady : Talk Bool :=
  .ask .isReady .done

/- Whether the radio knows a network to attach to. -/
def hasCredentials : Talk Bool :=
  .ask .hasCredentials .done

/- Power the radio on and wait until it accepts commands. -/
def powerOn : Talk (Except Fault Unit) :=
  .ask .powerOn .done

/- Power the radio off. -/
def powerOff : Talk (Except Fault Unit) :=
  .ask .powerOff .done

/- Start to attach; readiness tells when it is done. -/
def beginConnect : Talk (Except Fault Unit) :=
  .ask .beginConnect .done

/- Detach from the network. -/
def disconnect : Talk (Except Fault Unit) :=
  .ask .disconnect .done

/- Hold the data link down, or no longer. -/
def suppressData
    (suppressed : Bool) : Talk Unit :=
  .ask (.suppressData suppressed) .done

/- Announce a change of the link. -/
def announce
    (technology : Technology)
    (what : Announcement) : Talk Unit :=
  .ask (.announce technology what) .done

/- Let the cloud session close before the link drops. -/
def closeCloud : Talk Unit :=
  .ask .closeCloud .done

/- Show the status of the link in telemetry. -/
def showLink
    (technology : Technology)
    (status : LinkStatus) : Talk Unit :=
  .ask (.showLink technology status) .done

/- Count an event in telemetry. -/
def count
    (counter : Counter) : Talk Unit :=
  .ask (.count counter) .done

end Talk

end Link

end Fota
