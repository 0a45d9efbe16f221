import Fota.Proofs.Interfaces.Levels

/-
  This file shows how gains and losses move the level of a
  network manager. A gain raises it by one step at most. A loss
  makes the table settle the level anew if the level rests on
  what is lost, and may then raise it: what the table has shown
  all along counts only then.

  The main statements are
  `Interfaces.Manager.loss_raises_iff_outdone` and
  `Interfaces.Manager.loss_raises_level`.
-/

namespace Fota

namespace Interfaces

variable
  {event : Event}
  {table : Table}
  {level next rest : Level}

------------------------------------------------------------
-- Shifts between Active Levels
------------------------------------------------------------

/- No event takes a manager away from the active levels. -/
theorem Shifts.isActive
    (hShifts : Shifts event table level next)
    (hActive : level.isActive) :
    next.isActive := by
  cases hShifts with
  | rises hGained hMark hShows hLow hHeight =>
      cases next with
      | up => rfl
      | linkUp => rfl
      | configured => rfl
      | disabled => cases hHeight
      | down => cases hHeight
      | requestUp => cases hHeight
      | requestDown => cases hHeight
  | settles hLost hHeight =>
      exact Level.isActive_ofTable
  | letsGo hLost hDown =>
      cases hActive
  | stays hSpared hAsked hHeld =>
      exact hActive

/- A gain keeps the level or raises it by one step. -/
theorem Shifts.height_of_gained
    (hShifts : Shifts event table level next)
    (hGained : event.gained? = some rest) :
    level.height ≤ next.height ∧
      next.height ≤ level.height + 1 := by
  have hLost := Event.lost?_of_gained hGained
  cases hShifts with
  | rises _ hMark hShows hActive hHeight =>
      omega
  | settles hGone hHeight =>
      rw [hLost] at hGone
      cases hGone
  | letsGo hGone hDown =>
      rw [hLost] at hGone
      cases hGone
  | stays hSpared hAsked hHeld =>
      omega

/-
  A table outdoes a level if some managed interface shows what a
  higher one stands for.
-/
def Table.Outdoes
    (table : Table)
    (level : Level) : Prop :=
  ∃ higher : Level,
    level.height < higher.height ∧ table.Backs higher

/- A loss raises the level if that rests on it and is outdone. -/
theorem Shifts.raised_iff_of_lost
    (hShifts : Shifts event table level next)
    (hActive : level.isActive)
    (hLost : event.lost? = some rest) :
    level.height < next.height ↔
      rest.height ≤ level.height ∧ table.Outdoes level := by
  cases hShifts with
  | rises hGained hMark hShows hLow hHeight =>
      rw [Event.lost?_of_gained hGained] at hLost
      cases hLost
  | settles hGone hHeight =>
      rw [hLost, Option.some.injEq] at hGone
      subst hGone
      constructor
      · intro hRaised
        exact ⟨hHeight, _, hRaised, Table.backs_ofTable⟩
      · rintro ⟨-, higher, hHigher, hBacks⟩
        exact
          Nat.lt_of_lt_of_le hHigher
            (Table.height_le_ofTable hBacks)
  | letsGo hGone hDown =>
      cases hActive
  | stays hSpared hAsked hHeld =>
      have hAbove := hSpared rest hLost
      constructor
      · intro hRaised
        exact absurd hRaised (Nat.lt_irrefl _)
      · rintro ⟨hRests, -⟩
        exact absurd hAbove (Nat.not_lt.mpr hRests)

------------------------------------------------------------
-- Gains and Losses of a Manager
------------------------------------------------------------

namespace Manager

/-
  Between the active levels a gain raises a manager by one step
  at most. A loss raises it exactly if its level rests on what
  is lost and the table, without it, outdoes the level.
-/
theorem loss_raises_iff_outdone
    (inputs : List Input)
    (event : Event)
    (hActive : (after inputs).level.isActive) :
    let before := (after inputs).level
    let m := (after inputs).next (.report event)
    m.level.isActive ∧
      (∀ rest, event.lost? = some rest →
        (before.height < m.level.height ↔
          rest.height ≤ before.height ∧
            m.table.Outdoes before)) ∧
        ∀ gain, event.gained? = some gain →
          before.height ≤ m.level.height ∧
            m.level.height ≤ before.height + 1 := by
  intro before m
  have hShifts : Shifts event m.table before m.level :=
    shifts_levelAfter event
      { after inputs with
        table := (after inputs).table.record event }
  exact
    ⟨hShifts.isActive hActive,
      fun rest => hShifts.raised_iff_of_lost hActive,
      fun gain => hShifts.height_of_gained⟩

/- Two interfaces are up, and one of them has its link. -/
def linked : List Input :=
  [.command .enable, .report (.added 2 false),
    .report (.added 3 false), .command .activate,
    .report (.admin 2 true), .report (.admin 3 true),
    .report (.link 2 true)]

/- The loss of the link does not raise the level. -/
theorem loss_of_link_raises_nothing :
    (after linked).level.isActive ∧
      ((after linked).next (.report (.removed 2))).level = .up ∧
        ¬ ((after linked).level.height <
          ((after linked).next
            (.report (.removed 2))).level.height) := by
  have hActive : (after linked).level.isActive := by
    decide
  have hLoss :=
    (loss_raises_iff_outdone linked (.removed 2) hActive).2.1
      .up rfl
  refine ⟨hActive, by decide, ?_⟩
  rw [hLoss]
  rintro ⟨-, higher, hHigher, hBacks⟩
  have hAddress :
      ¬ ((after linked).next (.report (.removed 2))).table.Shows
        (·.hasAddress) := by
    decide
  cases higher with
  | configured =>
      exact hAddress (hBacks.shows rfl)
  | linkUp =>
      exact absurd hHigher (by decide)
  | up =>
      exact absurd hHigher (by decide)
  | disabled => cases hHigher
  | down => cases hHigher
  | requestUp => cases hHigher
  | requestDown => cases hHigher

/-
  An interface is up with a link and an address before it is
  asked for, a second one comes up afterwards.
-/
def precocious : List Input :=
  [.command .enable, .report (.added 2 false),
    .report (.added 3 false), .report (.admin 2 true),
    .report (.link 2 true), .report (.address 2 true),
    .command .activate, .report (.admin 3 true)]

/-
  When the second one goes down, the manager rises by two steps:
  only now does it count the address of the first one.
-/
theorem loss_raises_level :
    ∃ inputs event,
      (after inputs).level = .up ∧
        event.lost? = some .up ∧
          ((after inputs).next (.report event)).level =
              .configured ∧
            (after inputs).level.height <
              ((after inputs).next
                (.report event)).level.height :=
  ⟨precocious, .admin 3 false, by decide, rfl, by decide,
    by decide⟩

end Manager

end Interfaces

end Fota
