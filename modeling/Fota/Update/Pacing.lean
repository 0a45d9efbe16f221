import Fota.Clock

/-
  This file defines what paces an update run: the cooldown that
  keeps its stages from working too often, the time for which a
  stage has lasted, and the counts of its retries.

  Key definitions include:
    * `Cooldown`
    * `Cooldown.arm`
    * `Cooldown.update`
    * `StageTime`
    * `StageTime.elapsed`
    * `Retries`
    * `Retries.more`
-/

namespace Fota

------------------------------------------------------------
-- Cooldown
------------------------------------------------------------

/- A cooldown under way: when it began and how long it lasts. -/
structure Cooldown where
  since : Instant
  duration : UInt32
deriving DecidableEq, Repr

namespace Cooldown

/- Begin a cooldown; one without length is none. -/
def arm
    (now : Instant)
    (duration : UInt32) : Option Cooldown :=
  if duration = 0 then
    none
  else
    some ⟨now, duration⟩

/- What is left of a cooldown: nothing once it has elapsed. -/
def update
    (now : Instant)
    (cooldown : Option Cooldown) : Option Cooldown :=
  cooldown.filter
    (fun c => ¬ c.since.Elapsed c.duration now)

/- Nothing is left of a cooldown once it has elapsed, -/
theorem update_eq_none_iff
    {now : Instant}
    {cooldown : Option Cooldown} :
    update now cooldown = none ↔
      ∀ c ∈ cooldown, c.since.Elapsed c.duration now := by
  unfold update
  rw [Option.filter_eq_none_iff]
  simp

/- and until then it is left as it was. -/
theorem eq_some_of_update
    {now : Instant}
    {cooldown : Option Cooldown}
    {c : Cooldown}
    (hLeft : update now cooldown = some c) :
    cooldown = some c := by
  unfold update at hLeft
  exact (Option.filter_eq_some_iff.mp hLeft).1

/- A cooldown that was begun has elapsed when it is over. -/
theorem elapsed_of_arm
    {since now : Instant}
    {duration : UInt32}
    (hOver : update now (arm since duration) = none) :
    since.Elapsed duration now := by
  rw [update_eq_none_iff] at hOver
  by_cases hZero : duration = 0
  · rw [hZero]
    exact Instant.elapsed_zero since now
  · apply hOver ⟨since, duration⟩
    unfold arm
    rw [if_neg hZero]
    rfl

end Cooldown

------------------------------------------------------------
-- Time of a Stage
------------------------------------------------------------

/-
  The first tick of a stage, once it has had one, and the start
  of the download that the stage waits for, if there is one.
-/
structure StageTime where
  enteredAt : Option Instant
  pendingSince : Option Instant
deriving DecidableEq, Repr

namespace StageTime

/- The time of a stage that has had no tick. -/
def fresh : StageTime where
  enteredAt := none
  pendingSince := none

/- Milliseconds since the first tick of the stage. -/
def elapsed
    (time : StageTime)
    (now : Instant) : Nat :=
  match time.enteredAt with
  | none => 0
  | some entered => now.since entered

/- Note the first tick of the stage. -/
def enter
    (now : Instant)
    (time : StageTime) : StageTime :=
  { time with enteredAt := some (time.enteredAt.getD now) }

end StageTime

------------------------------------------------------------
-- Retries
------------------------------------------------------------

/- How often the parts of a run were tried again. -/
structure Retries where
  qualify : UInt8
  publishStart : UInt8
  httpsSetup : UInt8
  download : UInt8
  cloudConnectExit : UInt8
deriving DecidableEq, Repr

namespace Retries

/- Nothing was tried again. -/
def none : Retries where
  qualify := 0
  publishStart := 0
  httpsSetup := 0
  download := 0
  cloudConnectExit := 0

/- One more retry; the count stops at its largest value. -/
def more
    (count : UInt8) : UInt8 :=
  if count = 255 then 255 else count + 1

end Retries

end Fota
