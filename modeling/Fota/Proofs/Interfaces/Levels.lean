import Fota.Proofs.Interfaces.Histories

/-
  This file orders the active levels of a network manager and
  says what a report does to the level: it stays, rises by one
  step, is settled anew by the table, or is let go.

  Key definitions include:
    * `Interfaces.Level.height`
    * `Interfaces.Table.Backs`
    * `Interfaces.Event.gained?`
    * `Interfaces.Event.lost?`
    * `Interfaces.Shifts`

  The main statements are `Interfaces.shifts_levelAfter` and
  `Interfaces.Level.height_le_ofTable`.
-/

namespace Fota

namespace Interfaces

------------------------------------------------------------
-- Heights and Marks
------------------------------------------------------------

namespace Level

/- The height of an active level; the others lie at the bottom. -/
def height : Level → Nat
| .up => 1
| .linkUp => 2
| .configured => 3
| _ => 0

/- What some managed interface shows at a level, if anything. -/
def mark? : Level → Option (Row → Bool)
| .up => some (·.adminUp)
| .linkUp => some (·.linkUp)
| .configured => some (·.hasAddress)
| .requestDown => some (·.adminUp)
| _ => none

end Level

/-
  A table backs a level: some managed interface shows what the
  level stands for. While interfaces are still asked to come up,
  none of them is.
-/
def Table.Backs
    (table : Table) : Level → Prop
| .requestUp => ¬ table.Shows (·.adminUp)
| level => ∀ mark ∈ level.mark?, table.Shows mark

namespace Table

variable {table : Table}

theorem backs_of_mark
    {level : Level}
    {mark : Row → Bool}
    (hMark : level.mark? = some mark)
    (hShows : table.Shows mark) :
    table.Backs level := by
  cases level <;> simp_all [Backs, Level.mark?]

theorem Backs.shows
    {level : Level}
    {mark : Row → Bool}
    (hBacks : table.Backs level)
    (hMark : level.mark? = some mark) :
    table.Shows mark := by
  cases level <;> simp_all [Backs, Level.mark?]

/- The level that a table calls for is backed by it, -/
theorem backs_ofTable :
    table.Backs (.ofTable table) := by
  unfold Level.ofTable
  split
  · next hAddress =>
      exact backs_of_mark rfl (shows_iff_any.mpr hAddress)
  · split
    · next hLink =>
        exact backs_of_mark rfl (shows_iff_any.mpr hLink)
    · split
      · next hUp =>
          exact backs_of_mark rfl (shows_iff_any.mpr hUp)
      · next hDown =>
          exact fun hUp => hDown (shows_iff_any.mp hUp)

theorem Shows.any
    {mark : Row → Bool}
    (hShows : table.Shows mark) :
    table.managed.any mark = true :=
  shows_iff_any.mp hShows

/- and it is the highest one that is. -/
theorem height_le_ofTable
    {level : Level}
    (hBacks : table.Backs level) :
    level.height ≤ (Level.ofTable table).height := by
  have hShows {mark} (hMark : level.mark? = some mark) :=
    (hBacks.shows hMark).any
  unfold Level.ofTable anyAddress anyLink anyUp
  cases level with
  | configured =>
      exact
        Nat.le_of_eq
          (congrArg Level.height (if_pos (hShows rfl)).symm)
  | linkUp =>
      split
      · decide
      · exact
          Nat.le_of_eq
            (congrArg Level.height (if_pos (hShows rfl)).symm)
  | up =>
      split
      · decide
      · split
        · decide
        · exact
            Nat.le_of_eq
              (congrArg Level.height (if_pos (hShows rfl)).symm)
  | disabled => exact Nat.zero_le _
  | down => exact Nat.zero_le _
  | requestUp => exact Nat.zero_le _
  | requestDown => exact Nat.zero_le _

end Table

theorem Level.isActive_ofTable
    {table : Table} :
    (ofTable table).isActive := by
  unfold ofTable
  split
  · rfl
  · split
    · rfl
    · split <;> rfl

------------------------------------------------------------
-- Gains and Losses
------------------------------------------------------------

namespace Event

/- The level for which an event is a gain. -/
def gained? : Event → Option Level
| .added _ _ => some .requestUp
| .admin _ true => some .up
| .link _ true => some .linkUp
| .address _ true => some .configured
| _ => none

/- The lowest level that rests on what an event takes away. -/
def lost? : Event → Option Level
| .removed _ => some .up
| .admin _ false => some .up
| .link _ false => some .linkUp
| .address _ false => some .configured
| _ => none

/- An event may be a gain or a loss, but not both. -/
theorem lost?_of_gained
    {event : Event}
    {level : Level}
    (hGained : event.gained? = some level) :
    event.lost? = none := by
  revert hGained
  unfold gained? lost?
  split <;> simp

/- Something is lost only to levels above the bottom. -/
theorem height_of_lost
    {event : Event}
    {level : Level}
    (hLost : event.lost? = some level) :
    0 < level.height := by
  revert hLost
  unfold lost?
  split <;> simp [Level.height] <;> rintro rfl <;> decide

end Event

------------------------------------------------------------
-- Shifts
------------------------------------------------------------

/-
  What an event does to the level of a manager whose table
  already shows it.
-/
inductive Shifts
    (event : Event)
    (table : Table) :
    Level → Level → Prop where
| rises
    {level next : Level}
    {mark : Row → Bool}
    (hGained : event.gained? = some next)
    (hMark : next.mark? = some mark)
    (hShows : table.Shows mark)
    (hActive : level.isActive)
    (hHeight : next.height = level.height + 1) :
    Shifts event table level next
| settles
    {level rest : Level}
    (hLost : event.lost? = some rest)
    (hHeight : rest.height ≤ level.height) :
    Shifts event table level (.ofTable table)
| letsGo
    (hLost : event.lost? = some .up)
    (hDown : ¬ table.Shows (·.adminUp)) :
    Shifts event table .requestDown .down
| stays
    {level : Level}
    (hSpared :
      ∀ rest ∈ event.lost?, level.height < rest.height)
    (hAsked :
      level = .requestUp → event.gained? = some .up →
        ¬ table.Shows (·.adminUp))
    (hHeld :
      level = .requestDown → event.lost? = some .up →
        table.Shows (·.adminUp)) :
    Shifts event table level level

variable
  {event : Event}
  {table : Table}

/- A gain raises the level by a step, if the table shows it. -/
theorem shifts_gain
    {level next : Level}
    {mark : Row → Bool}
    (hGained : event.gained? = some next)
    (hMark : next.mark? = some mark)
    (hActive : level.isActive)
    (hHeight : next.height = level.height + 1) :
    Shifts event table level
      (if table.managed.any mark then next else level) := by
  split
  · next hAny =>
      exact
        .rises hGained hMark (Table.shows_iff_any.mpr hAny)
          hActive hHeight
  · next hNone =>
      have hLost := Event.lost?_of_gained hGained
      refine .stays ?_ ?_ ?_
      · intro rest hRest
        rw [hLost] at hRest
        cases hRest
      · rintro - hUp
        rw [hGained, Option.some.injEq] at hUp
        subst hUp
        cases hMark
        exact fun hShows => hNone hShows.any
      · rintro - hHeld
        rw [hLost] at hHeld
        cases hHeld

/- Interfaces that go down are awaited until none is up. -/
theorem shifts_wait
    (hLost : event.lost? = some .up) :
    Shifts event table .requestDown
      (if table.anyUp then .requestDown else .down) := by
  split
  · next hUp =>
      refine .stays ?_ nofun ?_
      · intro rest hRest
        rw [hLost] at hRest
        cases hRest
        decide
      · exact fun _ _ => Table.shows_iff_any.mpr hUp
  · next hDown =>
      exact
        .letsGo hLost
          (fun hUp => hDown (Table.shows_iff_any.mp hUp))

theorem shifts_levelAfter
    (event : Event)
    (m : Manager) :
    Shifts event m.table m.level (m.levelAfter event) := by
  rcases m with ⟨level, table⟩
  unfold Manager.levelAfter
  dsimp only
  split
  case h_1 =>
    exact shifts_gain rfl rfl rfl rfl
  case h_2 =>
    exact shifts_gain rfl rfl rfl rfl
  case h_5 =>
    exact shifts_gain rfl rfl rfl rfl
  case h_13 =>
    exact shifts_wait rfl
  case h_14 =>
    exact shifts_wait rfl
  case h_15 =>
    refine .stays ?_ ?_ ?_
    · intro rest hRest
      unfold Event.lost? at hRest
      split at hRest <;> cases hRest <;> cases level <;>
        simp_all [Level.height]
    · rintro rfl hUp
      unfold Event.gained? at hUp
      split at hUp <;> cases hUp
      simp_all
    · rintro rfl hLost
      unfold Event.lost? at hLost
      split at hLost <;> cases hLost <;> simp_all
  all_goals exact .settles rfl (by decide)

end Interfaces

end Fota
