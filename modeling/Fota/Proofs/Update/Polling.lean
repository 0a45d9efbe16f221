import Fota.Proofs.Dialogue.Transcripts
import Fota.Update.Requests

/-
  This file defines platforms, which answer whatever an updater
  asks in a state of their own, and shows when an updater finds
  the modem on. The number of its looks is bounded. That is no
  restriction if one of them finds the power on or the timeout
  elapsed, and one does if the delays between them advance the
  clock.

  Key definitions include:
    * `Update.Platform`
    * `Update.Platform.result`
    * `Update.Platform.PowersOn`
    * `Update.Platform.Ends`
    * `Update.Platform.Advances`

  The main statements are `Update.Platform.Advances.ends`,
  `Update.Platform.powersOn_of_result_awaitPower` and
  `Update.Platform.result_awaitPower_of_ends`.
-/

namespace Fota

open Update (Answer Question Talk)

------------------------------------------------------------
-- Platforms
------------------------------------------------------------

/- A platform answers every question, in a state of its own. -/
abbrev Update.Platform
    (W : Type) : Type :=
  (question : Question) → StateM W (Answer question)

namespace Update.Platform

variable
  {W : Type}
  {α β : Type}
  (p : Platform W)

/- What the platform answers in a state. -/
def answer
    (question : Question)
    (w : W) : Answer question :=
  ((p question).run w).1

/- The state in which the platform leaves a question. -/
def after
    (question : Question)
    (w : W) : W :=
  ((p question).run w).2

/- What a dialogue with the platform comes to. -/
def result
    (d : Talk α)
    (w : W) : α :=
  ((d.run p).run w).1

/- The state in which a dialogue leaves the platform. -/
def left
    (d : Talk α)
    (w : W) : W :=
  ((d.run p).run w).2

@[simp]
theorem result_done
    (a : α)
    (w : W) :
    p.result (.done a) w = a :=
  rfl

@[simp]
theorem result_ask
    (question : Question)
    (resume : Answer question → Talk α)
    (w : W) :
    p.result (.ask question resume) w =
      p.result (resume (p.answer question w))
        (p.after question w) :=
  rfl

@[simp]
theorem left_done
    (a : α)
    (w : W) :
    p.left (.done a) w = w :=
  rfl

@[simp]
theorem left_ask
    (question : Question)
    (resume : Answer question → Talk α)
    (w : W) :
    p.left (.ask question resume) w =
      p.left (resume (p.answer question w))
        (p.after question w) :=
  rfl

/- The second of two dialogues goes on where the first ends. -/
theorem result_bind
    (d : Talk α)
    (next : α → Talk β)
    (w : W) :
    p.result (d >>= next) w =
      p.result (next (p.result d w)) (p.left d w) := by
  induction d generalizing w with
  | done a =>
      rfl
  | ask question resume ih =>
      exact ih _ _

------------------------------------------------------------
-- Looks at the Power
------------------------------------------------------------

/-
  The state of the platform at the looks of an updater that
  waits for the modem to be on: between two of them it reads the
  clock and lets some time pass.
-/
def looked
    (w : W) : Nat → W
| 0 => w
| n + 1 =>
    p.after (.delay Updater.powerPoll)
      (p.after .now (p.after .networkPower (looked w n)))

/- The power that is found at a look, counted from zero. -/
def power
    (w : W)
    (n : Nat) : PowerState :=
  p.answer .networkPower (p.looked w n)

/- The reading of the clock that belongs to a look. -/
def clock
    (w : W)
    (n : Nat) : Instant :=
  p.answer .now (p.after .networkPower (p.looked w n))

/- The power is found on before the timeout is seen to elapse. -/
def PowersOn
    (began : Instant)
    (timeout : UInt32)
    (w : W) : Prop :=
  ∃ n, p.power w n = .on ∧
    ∀ m < n, ¬ began.Elapsed timeout (p.clock w m)

/-
  One of the looks that an updater has ends its wait: the power
  is found on, or the timeout is seen to have elapsed.
-/
def Ends
    (began : Instant)
    (timeout : UInt32)
    (w : W) : Prop :=
  ∃ n ≤ timeout.toNat,
    p.power w n = .on ∨ began.Elapsed timeout (p.clock w n)

/-
  The clock does not go back, and as long as the wait goes on,
  each delay advances it.
-/
structure Advances
    (began : Instant)
    (timeout : UInt32)
    (w : W) : Prop where
  start : began.toNat ≤ (p.clock w 0).toNat
  delay :
    ∀ n < timeout.toNat,
      (∀ m ≤ n, p.power w m ≠ .on ∧
        ¬ began.Elapsed timeout (p.clock w m)) →
        (p.clock w n).toNat < (p.clock w (n + 1)).toNat

variable
  {p}
  {began : Instant}
  {timeout : UInt32}
  {w : W}

/- After so many looks, at least as many milliseconds passed. -/
theorem Advances.le_clock
    (hAdvances : p.Advances began timeout w)
    (hGoesOn : ¬ p.Ends began timeout w)
    {n : Nat}
    (hWithin : n ≤ timeout.toNat) :
    began.toNat + n ≤ (p.clock w n).toNat := by
  induction n with
  | zero =>
      exact hAdvances.start
  | succ n ih =>
      have hBefore := ih (by omega)
      have hDelay :
          (p.clock w n).toNat < (p.clock w (n + 1)).toNat := by
        refine hAdvances.delay n (by omega) ?_
        intro m hEarlier
        rw [← not_or]
        intro hEnds
        exact hGoesOn ⟨m, by omega, hEnds⟩
      omega

/- So the wait ends at one of the looks. -/
theorem Advances.ends
    (hAdvances : p.Advances began timeout w) :
    p.Ends began timeout w := by
  refine Classical.byContradiction fun hGoesOn => ?_
  have hClock :=
    hAdvances.le_clock hGoesOn (Nat.le_refl _)
  have hElapsed :
      began.Elapsed timeout (p.clock w timeout.toNat) := by
    unfold Instant.Elapsed Instant.since
    omega
  exact hGoesOn ⟨_, Nat.le_refl _, .inr hElapsed⟩

/- If it ends there and the power is found on, that is in time. -/
theorem PowersOn.exists_le
    (hPowersOn : p.PowersOn began timeout w)
    (hEnds : p.Ends began timeout w) :
    ∃ n ≤ timeout.toNat, p.power w n = .on ∧
      ∀ m < n, ¬ began.Elapsed timeout (p.clock w m) := by
  rcases hPowersOn with ⟨n, hPower, hEarly⟩
  rcases hEnds with ⟨last, hWithin, hEnds⟩
  rcases Nat.lt_or_ge last n with hAfter | hBefore
  · have hOn : p.power w last = .on :=
      hEnds.resolve_right (hEarly last hAfter)
    exact
      ⟨last, hWithin, hOn,
        fun m hTo => hEarly m (Nat.lt_trans hTo hAfter)⟩
  · exact ⟨n, Nat.le_trans hBefore hWithin, hPower, hEarly⟩

------------------------------------------------------------
-- Waiting for the Power
------------------------------------------------------------

/- One look: the wait ends, or it goes on with the next one. -/
theorem result_awaitPower_succ
    (first looks : Nat) :
    p.result (Updater.awaitPower began timeout (looks + 1))
        (p.looked w first) =
      if p.power w first = .on then
        true
      else if began.Elapsed timeout (p.clock w first) then
        false
      else
        p.result (Updater.awaitPower began timeout looks)
          (p.looked w (first + 1)) := by
  rw [Updater.awaitPower]
  simp only [Talk.networkPower, Talk.now, Talk.delay,
    Dialogue.ask_bind, Dialogue.done_bind, result_ask,
    Dialogue.pure_eq_done]
  change p.result (if p.power w first = .on then _ else _) _ = _
  split
  · rfl
  · rw [result_ask]
    change
      p.result
        (if began.Elapsed timeout (p.clock w first) then _ else _)
        _ = _
    split <;> rfl

/-
  From some look on, the updater finds the power on at one of
  the looks that it has left, if the timeout has not elapsed at
  an earlier one.
-/
theorem result_awaitPower_from
    (first looks : Nat) :
    p.result (Updater.awaitPower began timeout looks)
        (p.looked w first) = true ↔
      ∃ n, (first ≤ n ∧ n < first + looks) ∧
        p.power w n = .on ∧
          ∀ m, first ≤ m → m < n →
            ¬ began.Elapsed timeout (p.clock w m) := by
  induction looks generalizing first with
  | zero =>
      refine iff_of_false Bool.false_ne_true ?_
      rintro ⟨n, hRange, _⟩
      omega
  | succ looks ih =>
      rw [result_awaitPower_succ]
      split
      · next hOn =>
          refine iff_of_true rfl ?_
          exact
            ⟨first, by omega, hOn, fun m hFrom hTo => by omega⟩
      · next hOff =>
          split
          · next hLate =>
              refine iff_of_false Bool.false_ne_true ?_
              rintro ⟨n, hRange, hPower, hEarly⟩
              rcases Nat.eq_or_lt_of_le hRange.1 with hAt | hLater
              · exact hOff (hAt ▸ hPower)
              · exact hEarly first (Nat.le_refl _) hLater hLate
          · next hEarlyHere =>
              refine
                (ih (first + 1)).trans (exists_congr fun n => ?_)
              constructor
              · rintro ⟨hRange, hPower, hEarly⟩
                refine
                  ⟨by omega, hPower, fun m hFrom hTo => ?_⟩
                rcases Nat.eq_or_lt_of_le hFrom with hAt | hLater
                · exact hAt ▸ hEarlyHere
                · exact hEarly m hLater hTo
              · rintro ⟨hRange, hPower, hEarly⟩
                have hLater : n ≠ first := by
                  rintro rfl
                  exact hOff hPower
                exact
                  ⟨by omega, hPower,
                    fun m hFrom hTo => hEarly m (by omega) hTo⟩

/- However many looks there are, power is only found in time. -/
theorem powersOn_of_result_awaitPower
    {looks : Nat}
    (hOn :
      p.result (Updater.awaitPower began timeout looks) w =
        true) :
    p.PowersOn began timeout w := by
  rcases (result_awaitPower_from 0 looks).mp hOn with
    ⟨n, hRange, hPower, hEarly⟩
  exact ⟨n, hPower, fun m hTo => hEarly m (Nat.zero_le m) hTo⟩

/-
  The bound on the looks is no restriction: if one of them ends
  the wait, the power is found on if it is on in time.
-/
theorem result_awaitPower_of_ends
    (hEnds : p.Ends began timeout w)
    (hPowersOn : p.PowersOn began timeout w) :
    p.result
        (Updater.awaitPower began timeout (timeout.toNat + 1))
        w = true := by
  rcases hPowersOn.exists_le hEnds with
    ⟨n, hWithin, hPower, hEarly⟩
  exact
    (result_awaitPower_from 0 (timeout.toNat + 1)).mpr
      ⟨n, by omega, hPower, fun m _ hTo => hEarly m hTo⟩

end Update.Platform

end Fota
