import Fota.Proofs.Interfaces.Levels

/-
  This file shows that the level of a network manager is backed
  by its table after any commands and reports. Interfaces that
  were asked to go down are awaited until the last one that is
  up goes down or away.

  Key definitions include:
    * `Interfaces.Event.TakesDown`
    * `Interfaces.Table.LastUp`
    * `Interfaces.Manager.AwaitsLast`

  The main statement is
  `Interfaces.Manager.level_backed_by_table`.
-/

namespace Fota

namespace Interfaces

------------------------------------------------------------
-- What Events Spare
------------------------------------------------------------

namespace Row

variable
  {row : Row}
  {level : Level}
  {mark : Row → Bool}

/- What a level stands for survives every gain, -/
theorem mark_setAdmin_true
    (hMark : level.mark? = some mark)
    (hShown : mark row) :
    mark (row.setAdmin true) := by
  cases level <;> cases hMark <;> simp_all [setAdmin]

theorem mark_setLink
    {up : Bool}
    (hMark : level.mark? = some mark)
    (hSpared : up = true ∨ level.height < Level.linkUp.height)
    (hShown : mark row) :
    mark (row.setLink up) := by
  cases level <;> cases hMark <;>
    simp_all [setLink, Level.height]

/- and the loss of what the level does not rest on. -/
theorem mark_setAddress
    {configured : Bool}
    (hMark : level.mark? = some mark)
    (hSpared :
      configured = true ∨
        level.height < Level.configured.height)
    (hShown : mark row) :
    mark (row.setAddress configured) := by
  cases level <;> cases hMark <;>
    simp_all [setAddress, Level.height]

end Row

namespace Table

variable
  {table : Table}
  {event : Event}
  {level : Level}
  {mark : Row → Bool}

/- An added interface shows nothing. -/
theorem mark_fresh
    {index : UInt8}
    {loopback : Bool}
    (hMark : level.mark? = some mark) :
    ¬ mark (.fresh index loopback) := by
  cases level <;> cases hMark <;> exact Bool.false_ne_true

/-
  What a table shows for a level it still shows after an event
  that takes nothing away on which the level rests.
-/
theorem Shows.record
    (hShows : table.Shows mark)
    (hMark : level.mark? = some mark)
    (hSpared : ∀ rest ∈ event.lost?, level.height < rest.height)
    (hHeld : event.lost? = some .up → level ≠ .requestDown) :
    (table.record event).Shows mark := by
  have hUp : event.lost? ≠ some .up := by
    intro hLost
    have hLow := hSpared _ hLost
    cases level <;> cases hMark <;>
      simp_all [Level.height]
  cases event with
  | added index loopback =>
      exact (shows_added_iff (mark_fresh hMark)).mpr hShows
  | removed index =>
      exact absurd rfl hUp
  | admin index up =>
      cases up with
      | false =>
          exact absurd rfl hUp
      | true =>
          exact
            hShows.change (fun _ => rfl)
              (fun _ => Row.mark_setAdmin_true hMark)
  | link index up =>
      have hLink :
          up = true ∨ level.height < Level.linkUp.height := by
        cases up with
        | false => exact .inr (hSpared _ rfl)
        | true => exact .inl rfl
      exact
        hShows.change (fun _ => rfl)
          (fun _ => Row.mark_setLink hMark hLink)
  | address index configured =>
      have hAddress :
          configured = true ∨
            level.height < Level.configured.height := by
        cases configured with
        | false => exact .inr (hSpared _ rfl)
        | true => exact .inl rfl
      exact
        hShows.change (fun _ => rfl)
          (fun _ => Row.mark_setAddress hMark hAddress)
  | hardwareAddress index =>
      exact hShows

/- An interface is found up only if it was, or comes up now. -/
theorem shows_up_of_record
    (hShows : (table.record event).Shows (·.adminUp))
    (hGained : event.gained? ≠ some .up) :
    table.Shows (·.adminUp) := by
  cases event with
  | added index loopback =>
      exact (shows_added_iff Bool.false_ne_true).mp hShows
  | removed index =>
      exact shows_of_removed hShows
  | admin index up =>
      cases up with
      | false =>
          exact
            shows_of_change hShows (fun _ => rfl)
              (fun _ hUp => absurd hUp Bool.false_ne_true)
      | true =>
          exact absurd rfl hGained
  | link index up =>
      exact shows_of_change hShows (fun _ => rfl) (fun _ => id)
  | address index configured =>
      exact shows_of_change hShows (fun _ => rfl) (fun _ => id)
  | hardwareAddress index =>
      exact hShows

end Table

------------------------------------------------------------
-- The Last Interface that Is Up
------------------------------------------------------------

/- An interface is reported to be down or away. -/
def Event.TakesDown
    (index : UInt8)
    (event : Event) : Prop :=
  event = .admin index false ∨ event = .removed index

/- The only managed interface that is up. -/
structure Table.LastUp
    (table : Table)
    (row : Row) : Prop where
  held : row ∈ table.managed
  up : row.adminUp
  only : ∀ other ∈ table.managed, other.adminUp → other = row

theorem Event.lost?_eq_up_iff
    {event : Event} :
    event.lost? = some .up ↔
      ∃ index, event.TakesDown index := by
  constructor
  · intro hLost
    unfold lost? at hLost
    split at hLost <;> cases hLost
    · exact ⟨_, .inr rfl⟩
    · exact ⟨_, .inl rfl⟩
  · rintro ⟨index, rfl | rfl⟩ <;> rfl

namespace Table

variable
  {table : Table}
  {event : Event}
  {index : UInt8}

/- An interface that goes down or away leaves up the others. -/
theorem shows_up_iff_of_takesDown
    (hTakes : event.TakesDown index) :
    (table.record event).Shows (·.adminUp) ↔
      ∃ row ∈ table.managed, row.adminUp ∧
        row.index ≠ index := by
  simp only [shows_iff, mem_managed]
  rcases hTakes with rfl | rfl
  · constructor
    · rintro ⟨_, hRow, hSteered, hUp⟩
      rcases List.mem_map.mp hRow with ⟨row, hOld, rfl⟩
      split at hUp
      · cases hUp
      · next hOther =>
          rw [if_neg hOther] at hSteered
          exact ⟨row, ⟨hOld, hSteered⟩, hUp, hOther⟩
    · rintro ⟨row, ⟨hRow, hSteered⟩, hUp, hOther⟩
      refine ⟨row, ?_, hSteered, hUp⟩
      exact List.mem_map.mpr ⟨row, hRow, if_neg hOther⟩
  · constructor
    · rintro ⟨row, hRow, hSteered, hUp⟩
      rcases List.mem_filter.mp hRow with ⟨hOld, hOther⟩
      exact
        ⟨row, ⟨hOld, hSteered⟩, hUp, of_decide_eq_true hOther⟩
    · rintro ⟨row, ⟨hRow, hSteered⟩, hUp, hOther⟩
      exact
        ⟨row,
          List.mem_filter.mpr ⟨hRow, decide_eq_true hOther⟩,
          hSteered, hUp⟩

/- None is left up exactly when the last one goes. -/
theorem none_up_iff
    (event : Event)
    (hTidy : table.Tidy)
    (hUp : table.Shows (·.adminUp)) :
    (event.lost? = some .up ∧
        ¬ (table.record event).Shows (·.adminUp)) ↔
      ∃ row, table.LastUp row ∧ event.TakesDown row.index := by
  rw [Event.lost?_eq_up_iff]
  constructor
  · rintro ⟨⟨index, hTakes⟩, hNone⟩
    rw [shows_up_iff_of_takesDown hTakes] at hNone
    have hSame :
        ∀ row ∈ table.managed, row.adminUp →
          row.index = index := by
      intro row hRow hRowUp
      by_contra hOther
      exact hNone ⟨row, hRow, hRowUp, hOther⟩
    rcases hUp with ⟨row, hRow, hRowUp⟩
    have hIndex := hSame row hRow hRowUp
    subst hIndex
    refine ⟨row, ⟨hRow, hRowUp, ?_⟩, hTakes⟩
    intro other hOther hOtherUp
    exact
      hTidy.row_eq (mem_managed.mp hOther).1
        (mem_managed.mp hRow).1 (hSame other hOther hOtherUp)
  · rintro ⟨row, hLast, hTakes⟩
    refine ⟨⟨row.index, hTakes⟩, ?_⟩
    rw [shows_up_iff_of_takesDown hTakes]
    rintro ⟨other, hOther, hOtherUp, hIndex⟩
    rw [hLast.only other hOther hOtherUp] at hIndex
    exact hIndex rfl

end Table

------------------------------------------------------------
-- Backed Levels
------------------------------------------------------------

theorem requestsDown_eq_nil_iff
    {table : Table} :
    requestsDown table = [] ↔
      ¬ table.Shows (·.adminUp) := by
  simp [requestsDown, Table.Shows, List.filter_eq_nil_iff]

/- A shift leaves the level backed. -/
theorem backs_of_shifts
    {event : Event}
    {table : Table}
    {level next : Level}
    (hBacks : table.Backs level)
    (hShifts : Shifts event (table.record event) level next) :
    (table.record event).Backs next := by
  cases hShifts with
  | rises hGained hMark hShows hActive hHeight =>
      exact Table.backs_of_mark hMark hShows
  | settles hLost hHeight =>
      exact Table.backs_ofTable
  | letsGo hLost hDown =>
      exact nofun
  | stays hSpared hAsked hHeld =>
      by_cases hDown : level = .requestDown ∧
          event.lost? = some .up
      · rcases hDown with ⟨rfl, hLost⟩
        exact Table.backs_of_mark rfl (hHeld rfl hLost)
      cases hMark : level.mark? with
      | some mark =>
          apply Table.backs_of_mark hMark
          exact
            (hBacks.shows hMark).record hMark hSpared
              fun hLost hLevel => hDown ⟨hLevel, hLost⟩
      | none =>
          cases level with
          | requestUp =>
              intro hUp
              by_cases hGained : event.gained? = some .up
              · exact hAsked rfl hGained hUp
              · exact
                  hBacks (Table.shows_up_of_record hUp hGained)
          | disabled => exact nofun
          | down => exact nofun
          | up => cases hMark
          | linkUp => cases hMark
          | configured => cases hMark
          | requestDown => cases hMark

namespace Manager

variable {m : Manager}

theorem backs_of_obeys
    {c : Command}
    {m' : Manager}
    {requests : List Request}
    (hBacks : m.table.Backs m.level)
    (hObeys : m.Obeys c m' requests) :
    m'.table.Backs m'.level := by
  cases hObeys with
  | enable hLevel => exact nofun
  | disable hLevel => exact nofun
  | find hLevel hUp => exact Table.backs_of_mark rfl hUp
  | request hLevel hDown => exact hDown
  | rest hLevel => exact hBacks
  | letGo hLevel hDown => exact nofun
  | release hLevel hUp =>
      rw [ne_eq, requestsDown_eq_nil_iff, not_not] at hUp
      exact Table.backs_of_mark rfl hUp

theorem backs_next
    (input : Input)
    (hBacks : m.table.Backs m.level) :
    (m.next input).table.Backs (m.next input).level := by
  cases input with
  | command c =>
      unfold next step
      dsimp only
      split
      · next taken hTaken =>
          exact backs_of_obeys hBacks (obeys_of_command hTaken)
      · exact hBacks
  | report event =>
      exact
        backs_of_shifts hBacks
          (shifts_levelAfter event
            { m with table := m.table.record event })

theorem backs_after
    (inputs : List Input) :
    (after inputs).table.Backs (after inputs).level :=
  after_invariant (fun m => m.table.Backs m.level)
    nofun (fun _ => backs_next) inputs

------------------------------------------------------------
-- Waiting for Interfaces to Go Down
------------------------------------------------------------

/- While interfaces are awaited, commands change nothing. -/
theorem next_command_of_waiting
    (hLevel : m.level = .requestDown)
    (c : Command) :
    m.next (.command c) = m := by
  unfold next step command
  rw [hLevel]
  cases c <;> rfl

/- An event may end the wait, or not. -/
theorem level_of_waiting
    {event : Event}
    (hLevel : m.level = .requestDown) :
    (m.next (.report event)).level =
      if event.lost? = some .up ∧
          ¬ (m.table.record event).Shows (·.adminUp) then
        .down
      else
        .requestDown := by
  have hShifts :=
    shifts_levelAfter event
      { m with table := m.table.record event }
  rw [level_next_report]
  generalize Manager.levelAfter event _ = next at hShifts ⊢
  dsimp only at hShifts
  rw [hLevel] at hShifts
  cases hShifts with
  | rises hGained hMark hShows hActive hHeight =>
      cases hActive
  | settles hLost hHeight =>
      have hAbove := Event.height_of_lost hLost
      exact absurd (Nat.lt_of_lt_of_le hAbove hHeight)
        (Nat.lt_irrefl 0)
  | letsGo hLost hDown =>
      rw [if_pos ⟨hLost, hDown⟩]
  | stays hSpared hAsked hHeld =>
      rw [if_neg]
      rintro ⟨hLost, hDown⟩
      exact hDown (hHeld rfl hLost)

/-
  A manager waits for interfaces to go down: it goes on waiting
  or lets go, and lets go in just the event that takes the last
  interface that is up down or away, whatever comes before it.
-/
structure AwaitsLast
    (m : Manager) : Prop where
  goesOn :
    ∀ input,
      (m.next input).level = .requestDown ∨
        (m.next input).level = .down
  letsGo :
    ∀ input,
      (m.next input).level = .down ↔
        ∃ event row,
          input = .report event ∧
            m.table.LastUp row ∧ event.TakesDown row.index
  lasts :
    ∀ more,
      (∀ front, front <+: more →
          (m.run front).table.Shows (·.adminUp)) →
        (m.run more).level = .requestDown

theorem level_next_of_waiting
    (hLevel : m.level = .requestDown)
    (hTidy : m.table.Tidy)
    (hUp : m.table.Shows (·.adminUp))
    (input : Input) :
    ((m.next input).level = .requestDown ∨
        (m.next input).level = .down) ∧
      ((m.next input).level = .down ↔
        ∃ event row,
          input = .report event ∧
            m.table.LastUp row ∧
              event.TakesDown row.index) := by
  cases input with
  | command c =>
      rw [next_command_of_waiting hLevel, hLevel]
      exact ⟨.inl rfl, nofun, by rintro ⟨event, row, ⟨⟩, -⟩⟩
  | report event =>
      have hEnds := Table.none_up_iff event hTidy hUp
      rw [level_of_waiting hLevel]
      split
      · next hGone =>
          rcases hEnds.mp hGone with ⟨row, hLast⟩
          exact
            ⟨.inr rfl, fun _ => ⟨event, row, rfl, hLast⟩,
              fun _ => rfl⟩
      · next hStill =>
          refine ⟨.inl rfl, nofun, ?_⟩
          rintro ⟨_, row, ⟨⟩, hLast⟩
          exact absurd (hEnds.mpr ⟨row, hLast⟩) hStill

/- The wait lasts as long as some interface is up. -/
theorem level_run_of_waiting
    (hLevel : m.level = .requestDown)
    (more : List Input)
    (hUp :
      ∀ front, front <+: more →
        (m.run front).table.Shows (·.adminUp)) :
    (m.run more).level = .requestDown := by
  induction more generalizing m with
  | nil =>
      exact hLevel
  | cons input more ih =>
      apply ih
      · cases input with
        | command c =>
            rw [next_command_of_waiting hLevel, hLevel]
        | report event =>
            have hStill := hUp [.report event] ⟨more, rfl⟩
            rw [level_of_waiting hLevel, if_neg]
            exact fun hGone => hGone.2 hStill
      · rintro front ⟨back, rfl⟩
        exact hUp (input :: front) ⟨back, rfl⟩

/-
  The level of a manager is backed by its table at all times.
  While interfaces are to go down, the last one is awaited.
-/
theorem level_backed_by_table
    (inputs : List Input) :
    (after inputs).table.Backs (after inputs).level ∧
      ((after inputs).level = .requestDown →
        (after inputs).AwaitsLast) := by
  refine ⟨backs_after inputs, ?_⟩
  intro hLevel
  have hUp : (after inputs).table.Shows (·.adminUp) := by
    have hBacks := backs_after inputs
    rw [hLevel] at hBacks
    exact hBacks.shows rfl
  have hNext :=
    level_next_of_waiting hLevel (tidy_after inputs) hUp
  exact
    { goesOn := fun input => (hNext input).1
      letsGo := fun input => (hNext input).2
      lasts := level_run_of_waiting hLevel }

/- Two interfaces came up and are to go down again. -/
def dismissal : List Input :=
  [.command .enable, .report (.added 2 false),
    .report (.added 3 false), .command .activate,
    .report (.admin 2 true), .report (.admin 3 true),
    .command .deactivate]

/-
  The second of the two is still awaited when the first one is
  gone, but not any more when it is down itself.
-/
theorem dismissal_awaits_last :
    (after dismissal).level = .requestDown ∧
      (after (dismissal ++ [.report (.removed 2)])).level =
          .requestDown ∧
        (after
            (dismissal ++
              [.report (.removed 2),
                .report (.admin 3 false)])).level =
          .down := by
  have hWaits :=
    (level_backed_by_table dismissal).2 (by decide)
  have hLasts :=
    hWaits.lasts [.report (.removed 2)]
      (by
        intro front hFront
        rcases List.prefix_cons_iff.mp hFront with
          rfl | ⟨rest, rfl, hRest⟩
        · decide
        · rw [List.prefix_nil.mp hRest]
          decide)
  have hNext :=
    (level_backed_by_table
      (dismissal ++ [.report (.removed 2)])).2
      (by rw [after_append]; exact hLasts)
  refine ⟨by decide, by rw [after_append]; exact hLasts, ?_⟩
  have hLast :=
    (hNext.letsGo (.report (.admin 3 false))).mpr
      ⟨_, ⟨3, false, true, false, false⟩, rfl, by
        constructor <;> decide, .inl rfl⟩
  rw [after_append] at hLast ⊢
  exact hLast

end Manager

end Interfaces

end Fota
