import Fota.Clock

/-
  This file defines the watchdog of a connection attempt: a
  deadline that can be armed and disarmed.

  Key definitions include:
    * `Watchdog`
    * `Watchdog.arm`
    * `Watchdog.disarm`
    * `Watchdog.Expired`
-/

namespace Fota

------------------------------------------------------------
-- Watchdog
------------------------------------------------------------

/- When a watchdog was armed, if it is, and for how long. -/
structure Watchdog where
  armedAt : Option Instant
  duration : UInt32
deriving DecidableEq, Repr

namespace Watchdog

/- A watchdog that was never armed. -/
def idle : Watchdog where
  armedAt := none
  duration := 0

/- Arm the watchdog from now on. -/
def arm
    (_ : Watchdog)
    (now : Instant)
    (duration : UInt32) : Watchdog where
  armedAt := some now
  duration := duration

/- Disarm the watchdog; its length is kept. -/
def disarm
    (w : Watchdog) : Watchdog :=
  { w with armedAt := none }

/- Whether the watchdog is armed. -/
def isArmed
    (w : Watchdog) : Bool :=
  w.armedAt.isSome

/- The watchdog was armed long enough before `now`. -/
def Expired
    (w : Watchdog)
    (now : Instant) : Prop :=
  ∃ base ∈ w.armedAt, base.Elapsed w.duration now

instance
    (w : Watchdog)
    (now : Instant) :
    Decidable (w.Expired now) :=
  match hBase : w.armedAt with
  | none => isFalse (by simp [Expired, hBase])
  | some base =>
      if hElapsed : base.Elapsed w.duration now then
        isTrue (by simpa [Expired, hBase] using hElapsed)
      else
        isFalse (by simpa [Expired, hBase] using hElapsed)

end Watchdog

end Fota
