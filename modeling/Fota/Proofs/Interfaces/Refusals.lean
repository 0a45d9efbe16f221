import Fota.Proofs.Interfaces.Histories

/-
  This file shows what leaves a network manager alone. A command
  that does not suit the level is refused without any effect, no
  command has an effect on the table of interfaces, and a request
  that the network stack refuses has none on the manager.

  Key definitions include:
    * `Interfaces.Command.Suits`
    * `Interfaces.Manager.events`
    * `Interfaces.Manager.story`
    * `Interfaces.Manager.Control`
    * `Interfaces.Manager.driveAll`
    * `Interfaces.Manager.Unmoved`

  The main statement is
  `Interfaces.Manager.refusals_and_failures_harmless`.
-/

namespace Fota

namespace Interfaces

------------------------------------------------------------
-- Suitable Commands
------------------------------------------------------------

/- A command suits a level of networking. -/
def Command.Suits : Command → Level → Prop
| enable, level => level = .disabled
| disable, level => level = .down
| activate, level => level = .down
| deactivate, level => level ≠ .disabled

/- What the network stack reports by an input, if anything. -/
def Manager.Input.event? : Manager.Input → Option Event
| report event => some event
| command _ => none

namespace Manager

variable
  {m : Manager}
  {c : Command}
  {input : Input}
  {inputs others : List Input}

/- A command that suits the level is taken, -/
theorem exists_taken_of_suits
    (hSuits : c.Suits m.level) :
    ∃ taken, m.command c = .ok taken := by
  unfold command
  cases c with
  | enable =>
      rw [show m.level = .disabled from hSuits]
      exact ⟨_, rfl⟩
  | disable =>
      rw [show m.level = .down from hSuits]
      exact ⟨_, rfl⟩
  | activate =>
      rw [show m.level = .down from hSuits]
      exact ⟨_, rfl⟩
  | deactivate =>
      cases hLevel : m.level with
      | disabled => exact absurd hLevel hSuits
      | _ => exact ⟨_, rfl⟩

/- one that is taken suits it, -/
theorem suits_of_obeys
    {m' : Manager}
    {requests : List Request}
    (hObeys : m.Obeys c m' requests) :
    c.Suits m.level := by
  have hActive
      (hLevel : m.level.isActive) :
      m.level ≠ .disabled := by
    intro hDisabled
    rw [hDisabled] at hLevel
    cases hLevel
  cases hObeys with
  | enable hLevel => exact hLevel
  | disable hLevel => exact hLevel
  | find hLevel hUp => exact hLevel
  | request hLevel hDown => exact hLevel
  | rest hLevel =>
      intro hDisabled
      rw [hDisabled] at hLevel
      exact hLevel.elim nofun nofun
  | letGo hLevel hDown => exact hActive hLevel
  | release hLevel hUp => exact hActive hLevel

/- and all others are refused in the same way. -/
theorem fault_of_command
    {fault : Fault}
    (hRefused : m.command c = .error fault) :
    fault = .invalidState := by
  unfold command at hRefused
  split at hRefused <;> cases hRefused
  rfl

theorem step_ok_iff :
    (m.step (.command c)).1 = .ok () ↔ c.Suits m.level := by
  unfold step
  dsimp only
  cases hTaken : m.command c with
  | ok taken =>
      exact
        iff_of_true rfl
          (suits_of_obeys (obeys_of_command hTaken))
  | error fault =>
      apply iff_of_false
      · intro hOk
        cases hOk
      · intro hSuits
        rcases exists_taken_of_suits hSuits with ⟨taken, hOk⟩
        rw [hTaken] at hOk
        cases hOk

/- A refused command has no effect and leads to no request. -/
theorem step_of_not_suits
    (hRefused : ¬ c.Suits m.level) :
    m.step (.command c) = (.error .invalidState, m, []) := by
  unfold step
  dsimp only
  cases hTaken : m.command c with
  | ok taken =>
      exact
        absurd (suits_of_obeys (obeys_of_command hTaken))
          hRefused
  | error fault =>
      rw [fault_of_command hTaken]

/- Nothing is activated while interfaces are still going down. -/
example :
    step (.command .activate) ⟨.requestDown, []⟩ =
      (.error .invalidState, ⟨.requestDown, []⟩, []) :=
  rfl

------------------------------------------------------------
-- Tables and Events
------------------------------------------------------------

/- The events among some inputs, in order. -/
def events
    (inputs : List Input) : List Event :=
  inputs.filterMap Input.event?

/- The table is what the events make of it, and they alone. -/
theorem table_run
    (m : Manager)
    (inputs : List Input) :
    (m.run inputs).table =
      (events inputs).foldl
        (fun table event => table.record event) m.table := by
  induction inputs generalizing m with
  | nil =>
      rfl
  | cons input inputs ih =>
      change ((m.next input).run inputs).table = _
      rw [ih]
      cases input with
      | command c =>
          rw [table_next_command]
          rfl
      | report event => rfl

theorem table_after_congr
    (hEvents : events others = events inputs) :
    (after others).table = (after inputs).table := by
  unfold after
  rw [table_run, table_run, hEvents]

/- A refused command might as well not have been given. -/
theorem after_skip
    (inputs more : List Input)
    (hRefused : ¬ c.Suits (after inputs).level) :
    after (inputs ++ .command c :: more) =
      after (inputs ++ more) := by
  rw [after_append, after_append]
  change ((after inputs).next (.command c)).run more = _
  unfold next
  rw [step_of_not_suits hRefused]

------------------------------------------------------------
-- The Network Stack
------------------------------------------------------------

/- The results of some inputs, each with the manager after it. -/
def story
    (m : Manager) :
    List Input → List (Except Fault Unit × Manager)
| [] => []
| input :: inputs =>
    ((m.step input).1, m.next input) ::
      (m.next input).story inputs

/-
  A network stack with a state of its own, which may refuse
  whatever it likes.
-/
abbrev Control
    (σ : Type) : Type :=
  Request → StateM σ (Except Fault Unit)

section

variable {σ : Type}

/- Take some inputs in turn with a network stack. -/
def driveAll
    (control : Control σ)
    (m : Manager) :
    List Input → StateM σ (List (Except Fault Unit × Manager))
| [] => return []
| input :: inputs => do
    let taken ← m.drive control input
    return taken :: (← driveAll control taken.2 inputs)

/- What the network stack answers has no effect on an input, -/
theorem drive_run_fst
    (control : Control σ)
    (input : Input)
    (m : Manager)
    (stack : σ) :
    ((m.drive control input).run stack).1 =
      ((m.step input).1, m.next input) :=
  rfl

/- and so none on what comes of several inputs. -/
theorem driveAll_run_fst
    (control : Control σ)
    (m : Manager)
    (inputs : List Input)
    (stack : σ) :
    ((m.driveAll control inputs).run stack).1 =
      m.story inputs := by
  induction inputs generalizing m stack with
  | nil =>
      rfl
  | cons input inputs ih =>
      exact congrArg (List.cons _) (ih (m.next input) _)

/- A refused command does not even reach it. -/
theorem drive_run_of_not_suits
    (control : Control σ)
    (stack : σ)
    (hRefused : ¬ c.Suits m.level) :
    (m.drive control (.command c)).run stack =
      ((.error .invalidState, m), stack) := by
  unfold drive
  rw [step_of_not_suits hRefused]
  rfl

end

------------------------------------------------------------
-- What Leaves a Manager Alone
------------------------------------------------------------

/-
  A manager after some inputs takes just the commands that suit
  its level. Others leave it and the network stack alone, and
  might as well not have been given. Its table depends on the
  events alone, and nothing depends on what the network stack
  answers.
-/
structure Unmoved
    (inputs : List Input) : Prop where
  accepts :
    ∀ {σ : Type} (control : Control σ) (stack : σ) c,
      (((after inputs).drive control (.command c)).run
          stack).1.1 = .ok () ↔
        c.Suits (after inputs).level
  refuses :
    ∀ {σ : Type} (control : Control σ) (stack : σ) c,
      ¬ c.Suits (after inputs).level →
        ((after inputs).drive control (.command c)).run stack =
          ((.error .invalidState, after inputs), stack)
  skips :
    ∀ c more, ¬ c.Suits (after inputs).level →
      after (inputs ++ .command c :: more) =
        after (inputs ++ more)
  table :
    ∀ others, events others = events inputs →
      (after others).table = (after inputs).table
  failures :
    ∀ {σ : Type} (control : Control σ) (stack : σ),
      ((initial.driveAll control inputs).run stack).1 =
        initial.story inputs

theorem refusals_and_failures_harmless
    (inputs : List Input) :
    Unmoved inputs where
  accepts control stack c := by
    rw [drive_run_fst]
    exact step_ok_iff
  refuses control stack _ hRefused :=
    drive_run_of_not_suits control stack hRefused
  skips _ more hRefused := after_skip inputs more hRefused
  table _ hEvents := table_after_congr hEvents
  failures control stack :=
    driveAll_run_fst control initial inputs stack

end Manager

end Interfaces

end Fota
