/-
  This file defines runs on a bench. A run repeats a round until
  a goal or a reset ends it or its rounds are used up, and keeps
  what the rounds report.

  Key definitions include:
    * `Bench.Round`
    * `Bench.Run`
    * `Bench.repeatRounds`
-/

namespace Fota

namespace Bench

------------------------------------------------------------
-- Rounds
------------------------------------------------------------

/- What becomes of a run after one of its rounds. -/
inductive Verdict where
| goOn
| atGoal
| reset
deriving DecidableEq, Repr

/-
  One round: the state that it leaves, what it reports, if there
  is something to report, and what becomes of the run.
-/
structure Round
    (σ ρ : Type) where
  state : σ
  report : Option ρ
  verdict : Verdict

------------------------------------------------------------
-- Runs
------------------------------------------------------------

/- How a run ended; `atGoal` says after how many rounds. -/
inductive Ending where
| atGoal (rounds : Nat)
| reset
| spent
deriving DecidableEq, Repr

/- A run that has ended: its reports and the state it left. -/
structure Run
    (σ ρ : Type) where
  ending : Ending
  reports : List ρ
  state : σ

variable {σ ρ : Type}

/-
  Repeat a round, with a pause after each round that does not
  end the run. `seen` holds the reports so far, latest first.
-/
def repeatRounds
    (round : Nat → σ → Round σ ρ)
    (pause : σ → σ)
    (number : Nat)
    (seen : List ρ)
    (s : σ) : Nat → Run σ ρ
| 0 => ⟨.spent, seen.reverse, s⟩
| left + 1 =>
    let r := round number s
    let seen := r.report.toList ++ seen
    match r.verdict with
    | .reset => ⟨.reset, seen.reverse, r.state⟩
    | .atGoal => ⟨.atGoal (number + 1), seen.reverse, r.state⟩
    | .goOn =>
        repeatRounds round pause (number + 1) seen
          (pause r.state) left

end Bench

end Fota
