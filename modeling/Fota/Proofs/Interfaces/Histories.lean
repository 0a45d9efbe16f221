import Fota.Interfaces.Manager
import Mathlib.Data.List.Nodup

/-
  This file defines the histories of a network manager: what it
  is after any commands and reports, in any order. It also says
  what an input does to the table of interfaces.

  Key definitions include:
    * `Interfaces.Table.Tidy`
    * `Interfaces.Table.Shows`
    * `Interfaces.Manager.next`
    * `Interfaces.Manager.requests`
    * `Interfaces.Manager.after`

  The main statements are `Interfaces.Manager.tidy_after` and
  `Interfaces.Manager.after_invariant`.
-/

namespace Fota

namespace Interfaces

------------------------------------------------------------
-- Tidy Tables
------------------------------------------------------------

namespace Table

/- A table holds an index once, and no more rows than fit. -/
structure Tidy
    (table : Table) : Prop where
  once : (table.map (·.index)).Nodup
  fits : table.length ≤ room

variable
  {table : Table}
  {index : UInt8}
  {edit : Row → Row}

theorem tidy_empty :
    Tidy [] :=
  ⟨List.nodup_nil, Nat.zero_le _⟩

theorem tracks_iff :
    table.tracks index = true ↔ index ∈ table.map (·.index) := by
  simp [tracks]

/- A row is known by its index. -/
theorem Tidy.row_eq
    {row row' : Row}
    (hTidy : table.Tidy)
    (hRow : row ∈ table)
    (hRow' : row' ∈ table)
    (hIndex : row.index = row'.index) :
    row = row' :=
  List.inj_on_of_nodup_map hTidy.once hRow hRow' hIndex

theorem map_index_change
    (hEdit : ∀ row, (edit row).index = row.index) :
    (table.change index edit).map (·.index) =
      table.map (·.index) := by
  unfold change
  rw [List.map_map]
  apply List.map_congr_left
  intro row _
  dsimp only [Function.comp]
  split
  · exact hEdit row
  · rfl

/- Changing a row leaves a table tidy. -/
theorem Tidy.change
    (hTidy : table.Tidy)
    (hEdit : ∀ row, (edit row).index = row.index) :
    (table.change index edit).Tidy := by
  constructor
  · rw [map_index_change hEdit]
    exact hTidy.once
  · unfold Table.change
    rw [List.length_map]
    exact hTidy.fits

/- Recording an event leaves a table tidy. -/
theorem Tidy.record
    (hTidy : table.Tidy)
    (event : Event) :
    (table.record event).Tidy := by
  cases event with
  | added index loopback =>
      unfold Table.record
      dsimp only
      split
      · exact hTidy
      · next hNew =>
          rw [not_or, tracks_iff, Nat.not_le] at hNew
          constructor
          · rw [List.map_append, List.nodup_append]
            refine ⟨hTidy.once, List.nodup_singleton _, ?_⟩
            intro known hKnown added hAdded
            rw [List.map_singleton, List.mem_singleton] at hAdded
            rintro rfl
            rw [hAdded] at hKnown
            exact hNew.1 hKnown
          · rw [List.length_append]
            exact hNew.2
  | removed index =>
      have hPart :
          (table.record (.removed index)).Sublist table :=
        List.filter_sublist
      constructor
      · exact hTidy.once.sublist (hPart.map _)
      · exact Nat.le_trans hPart.length_le hTidy.fits
  | admin index up =>
      exact hTidy.change fun _ => rfl
  | link index up =>
      exact hTidy.change fun _ => rfl
  | address index configured =>
      exact hTidy.change fun _ => rfl
  | hardwareAddress index =>
      exact hTidy

------------------------------------------------------------
-- What a Table Shows
------------------------------------------------------------

/- Some managed interface has a mark. -/
def Shows
    (mark : Row → Bool)
    (table : Table) : Prop :=
  ∃ row ∈ table.managed, mark row

instance
    (mark : Row → Bool)
    (table : Table) :
    Decidable (table.Shows mark) := by
  unfold Shows
  infer_instance

variable {mark : Row → Bool}

theorem shows_iff_any :
    table.Shows mark ↔ table.managed.any mark = true := by
  simp [Shows]

theorem mem_managed
    {row : Row} :
    row ∈ table.managed ↔ row ∈ table ∧ ¬ row.loopback := by
  simp [managed]

theorem shows_iff :
    table.Shows mark ↔
      ∃ row ∈ table, ¬ row.loopback ∧ mark row := by
  simp only [Shows, mem_managed, and_assoc]

/- A mark that the edit spares is still shown, -/
theorem Shows.change
    (hShows : table.Shows mark)
    (hManaged : ∀ row, (edit row).loopback = row.loopback)
    (hKeeps : ∀ row, mark row → mark (edit row)) :
    (table.change index edit).Shows mark := by
  rw [shows_iff] at hShows ⊢
  rcases hShows with ⟨row, hRow, hSteered, hMark⟩
  refine ⟨_, List.mem_map_of_mem hRow, ?_⟩
  split
  · rw [hManaged]
    exact ⟨hSteered, hKeeps row hMark⟩
  · exact ⟨hSteered, hMark⟩

/- and one that it does not set was shown before. -/
theorem shows_of_change
    (hShows : (table.change index edit).Shows mark)
    (hManaged : ∀ row, (edit row).loopback = row.loopback)
    (hOnly : ∀ row, mark (edit row) → mark row) :
    table.Shows mark := by
  rw [shows_iff] at hShows ⊢
  rcases hShows with ⟨_, hRow, hSteered, hMark⟩
  rcases List.mem_map.mp hRow with ⟨row, hOld, rfl⟩
  refine ⟨row, hOld, ?_⟩
  split at hMark
  · next hIndex =>
      rw [if_pos hIndex, hManaged] at hSteered
      exact ⟨hSteered, hOnly row hMark⟩
  · next hIndex =>
      rw [if_neg hIndex] at hSteered
      exact ⟨hSteered, hMark⟩

/- An interface that is added shows nothing new. -/
theorem shows_added_iff
    {loopback : Bool}
    (hFresh : ¬ mark (.fresh index loopback)) :
    (table.record (.added index loopback)).Shows mark ↔
      table.Shows mark := by
  unfold record
  dsimp only
  split
  · rfl
  · rw [shows_iff, shows_iff]
    constructor
    · rintro ⟨row, hRow, hSteered, hMark⟩
      rcases List.mem_append.mp hRow with hRow | hRow
      · exact ⟨row, hRow, hSteered, hMark⟩
      · rw [List.mem_singleton.mp hRow] at hMark
        exact absurd hMark hFresh
    · rintro ⟨row, hRow, hParts⟩
      exact ⟨row, List.mem_append_left _ hRow, hParts⟩

theorem shows_of_removed
    (hShows : (table.record (.removed index)).Shows mark) :
    table.Shows mark := by
  rw [shows_iff] at hShows ⊢
  rcases hShows with ⟨row, hRow, hParts⟩
  exact ⟨row, List.mem_of_mem_filter hRow, hParts⟩

end Table

------------------------------------------------------------
-- Levels
------------------------------------------------------------

/- The levels between which events move the manager. -/
def Level.isActive : Level → Bool
| .requestUp => true
| .up => true
| .linkUp => true
| .configured => true
| _ => false

------------------------------------------------------------
-- Histories
------------------------------------------------------------

namespace Manager

/- The manager after an input. -/
def next
    (m : Manager)
    (input : Input) : Manager :=
  (m.step input).2.1

/- The requests that an input leads to. -/
def requests
    (m : Manager)
    (input : Input) : List Request :=
  (m.step input).2.2

/- The manager after some more inputs. -/
def run
    (m : Manager)
    (inputs : List Input) : Manager :=
  inputs.foldl next m

/- A manager that was never enabled, after some inputs. -/
def after
    (inputs : List Input) : Manager :=
  initial.run inputs

variable
  {m : Manager}
  {input : Input}

theorem after_append
    (inputs more : List Input) :
    after (inputs ++ more) = (after inputs).run more := by
  simp [after, run]

/- What each input keeps is kept by inputs in turn, -/
theorem run_invariant
    {Inv : Manager → Prop}
    (hKept : ∀ m input, Inv m → Inv (m.next input))
    (hInv : Inv m)
    (inputs : List Input) :
    Inv (m.run inputs) := by
  induction inputs generalizing m with
  | nil =>
      exact hInv
  | cons input inputs ih =>
      exact ih (hKept m input hInv)

/- and holds of every manager if it holds at first. -/
theorem after_invariant
    (Inv : Manager → Prop)
    (hInitial : Inv initial)
    (hKept : ∀ m input, Inv m → Inv (m.next input))
    (inputs : List Input) :
    Inv (after inputs) :=
  run_invariant hKept hInitial inputs

/-
  What a manager does that takes a command: the manager that
  comes of it, and the requests.
-/
inductive Obeys
    (m : Manager) :
    Command → Manager → List Request → Prop where
| enable
    (hLevel : m.level = .disabled) :
    Obeys m .enable { m with level := .down } []
| disable
    (hLevel : m.level = .down) :
    Obeys m .disable { m with level := .disabled } []
| find
    (hLevel : m.level = .down)
    (hUp : m.table.Shows (·.adminUp)) :
    Obeys m .activate { m with level := .up }
      (requestsUp m.table)
| request
    (hLevel : m.level = .down)
    (hDown : ¬ m.table.Shows (·.adminUp)) :
    Obeys m .activate { m with level := .requestUp }
      (requestsUp m.table)
| rest
    (hLevel : m.level = .down ∨ m.level = .requestDown) :
    Obeys m .deactivate m []
| letGo
    (hLevel : m.level.isActive)
    (hDown : requestsDown m.table = []) :
    Obeys m .deactivate { m with level := .down } []
| release
    (hLevel : m.level.isActive)
    (hUp : requestsDown m.table ≠ []) :
    Obeys m .deactivate { m with level := .requestDown }
      (requestsDown m.table)

theorem obeys_acquire
    (hLevel : m.level = .down) :
    m.Obeys .activate m.acquire.1 m.acquire.2 := by
  unfold acquire
  split
  · next hUp =>
      exact .find hLevel (Table.shows_iff_any.mpr hUp)
  · next hDown =>
      exact
        .request hLevel
          (fun hUp => hDown (Table.shows_iff_any.mp hUp))

theorem obeys_release
    (hLevel : m.level.isActive) :
    m.Obeys .deactivate m.release.1 m.release.2 := by
  unfold release
  split
  · next hDown =>
      exact .letGo hLevel hDown
  · next hUp =>
      exact .release hLevel hUp

theorem obeys_of_command
    {c : Command}
    {m' : Manager}
    {requests : List Request}
    (hTaken : m.command c = .ok (m', requests)) :
    m.Obeys c m' requests := by
  have hRelease
      (level : Level)
      (hLevel : m.level = level)
      (hActive : level.isActive)
      (hTaken :
        (.ok m.release : Except Fault _) = .ok (m', requests)) :
      m.Obeys .deactivate m' requests := by
    rw [← hLevel] at hActive
    have hObeys := obeys_release hActive
    rw [Except.ok.inj hTaken] at hObeys
    exact hObeys
  unfold command at hTaken
  split at hTaken
  · next hLevel =>
      cases hTaken
      exact .enable hLevel
  · next hLevel =>
      cases hTaken
      exact .disable hLevel
  · next hLevel =>
      have hObeys := obeys_acquire hLevel
      rw [Except.ok.inj hTaken] at hObeys
      exact hObeys
  · next hLevel =>
      cases hTaken
      exact .rest (.inl hLevel)
  · next hLevel => exact hRelease _ hLevel rfl hTaken
  · next hLevel => exact hRelease _ hLevel rfl hTaken
  · next hLevel => exact hRelease _ hLevel rfl hTaken
  · next hLevel => exact hRelease _ hLevel rfl hTaken
  · next hLevel =>
      cases hTaken
      exact .rest (.inr hLevel)
  · cases hTaken

/- A command leaves the table as it is. -/
theorem table_of_obeys
    {c : Command}
    {m' : Manager}
    {requests : List Request}
    (hObeys : m.Obeys c m' requests) :
    m'.table = m.table := by
  cases hObeys <;> rfl

theorem table_next_command
    (c : Command) :
    (m.next (.command c)).table = m.table := by
  unfold next step
  dsimp only
  split
  · next taken hTaken =>
      exact table_of_obeys (obeys_of_command hTaken)
  · rfl

/- A report is recorded, whatever the level. -/
@[simp]
theorem table_next_report
    (event : Event) :
    (m.next (.report event)).table = m.table.record event :=
  rfl

@[simp]
theorem level_next_report
    (event : Event) :
    (m.next (.report event)).level =
      { m with table := m.table.record event }.levelAfter event :=
  rfl

/- The table of a manager is tidy at all times. -/
theorem tidy_after
    (inputs : List Input) :
    (after inputs).table.Tidy := by
  apply after_invariant (fun m => m.table.Tidy)
  · exact Table.tidy_empty
  · intro m input hTidy
    cases input with
    | command c =>
        rw [table_next_command]
        exact hTidy
    | report event =>
        exact hTidy.record event

end Manager

end Interfaces

end Fota
