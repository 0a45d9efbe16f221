/-
  This file defines instants of the monotonic clock. The clock
  counts milliseconds in 64 bits; sums stop at the last
  instant and differences stop at zero.

  Key definitions include:
    * `Instant`
    * `Instant.after`
    * `Instant.since`
    * `Instant.Elapsed`
-/

namespace Fota

------------------------------------------------------------
-- Instants
------------------------------------------------------------

/- An instant is a reading of the monotonic clock. -/
structure Instant where
  ms : UInt64
deriving DecidableEq, Repr

namespace Instant

/- The number of milliseconds at an instant. -/
def toNat
    (t : Instant) : Nat :=
  t.ms.toNat

/- The reading at which the clock stops. -/
def last : Nat :=
  UInt64.size - 1

/- The instant at a number of milliseconds, or the last one. -/
def ofNat
    (n : Nat) : Instant :=
  ⟨UInt64.ofNat (min n last)⟩

/- The instant `n` milliseconds after `t`, or the last one. -/
def after
    (t : Instant)
    (n : Nat) : Instant :=
  ofNat (t.toNat + n)

/- Milliseconds from `base` to `now`, zero when `now` is earlier. -/
def since
    (now base : Instant) : Nat :=
  now.toNat - base.toNat

/- At `now`, `duration` milliseconds have passed since `base`. -/
def Elapsed
    (base : Instant)
    (duration : UInt32)
    (now : Instant) : Prop :=
  duration.toNat ≤ now.since base

instance
    (base : Instant)
    (duration : UInt32)
    (now : Instant) :
    Decidable (Elapsed base duration now) := by
  unfold Elapsed
  infer_instance

/- No time at all has passed since any instant. -/
theorem elapsed_zero
    (base now : Instant) :
    base.Elapsed 0 now :=
  Nat.zero_le _

/- What has passed since an instant has since an earlier one. -/
theorem Elapsed.trans
    {first second third : Instant}
    {duration : UInt32}
    (hFirst : first.Elapsed duration second)
    (hSecond : second.Elapsed duration third) :
    first.Elapsed duration third := by
  unfold Elapsed since at *
  omega

/- No instant lies past the last reading. -/
theorem toNat_le_last
    (t : Instant) :
    t.toNat ≤ last := by
  have hLt := t.ms.toNat_lt
  unfold toNat last UInt64.size
  omega

/- The reading of an instant made from a number. -/
theorem toNat_ofNat
    (n : Nat) :
    (ofNat n).toNat = min n last := by
  have hLe : min n last ≤ last := Nat.min_le_right _ _
  unfold ofNat toNat
  rw [UInt64.toNat_ofNat']
  apply Nat.mod_eq_of_lt
  unfold last UInt64.size at *
  omega

/- Waiting adds its length, up to the last reading. -/
theorem toNat_after
    (t : Instant)
    (n : Nat) :
    (t.after n).toNat = min (t.toNat + n) last :=
  toNat_ofNat _

end Instant

end Fota
