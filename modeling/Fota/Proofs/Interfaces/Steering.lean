import Fota.Proofs.Interfaces.Histories

/-
  This file shows which interfaces a network manager steers. It
  asks the managed ones to come up when it is activated, those
  that are up to go down when it is deactivated, and one that is
  added while it waits for the first to come up. In the last
  case it does not look whether the table took the interface:
  a request may then name one that it does not manage.

  Key definitions include:
    * `Interfaces.Manager.asked`
    * `Interfaces.Manager.Steers`
    * `Interfaces.Manager.Overreaches`

  The main statements are
  `Interfaces.Manager.steers_iff_not_overreaching` and
  `Interfaces.Manager.request_for_loopback`.
-/

namespace Fota

namespace Interfaces

namespace Manager

------------------------------------------------------------
-- Requests of a Step
------------------------------------------------------------

/- What an input makes the manager request, queued or not. -/
def asked
    (m : Manager) : Input → List Request
| .report event => (m.report event).2
| .command c =>
    match m.command c with
    | .ok taken => taken.2
    | .error _ => []

/- An activation is taken at the level of interfaces at rest. -/
def Activates
    (m : Manager)
    (input : Input) : Prop :=
  input = .command .activate ∧ (m.step input).1 = .ok ()

/- A deactivation leaves the active levels. -/
def Deactivates
    (m : Manager)
    (input : Input) : Prop :=
  input = .command .deactivate ∧ m.level.isActive

/- An interface is added while none has come up yet. -/
def Adds
    (m : Manager)
    (index : UInt8)
    (input : Input) : Prop :=
  m.level = .requestUp ∧
    ∃ loopback, input = .report (.added index loopback)

/- All that an input can make a manager request. -/
inductive Asks
    (m : Manager)
    (input : Input) :
    List Request → Prop where
| raise
    (hActivates : m.Activates input) :
    Asks m input (requestsUp m.table)
| lower
    (hDeactivates : m.Deactivates input) :
    Asks m input (requestsDown m.table)
| add
    {index : UInt8}
    (hLevel : m.level = .requestUp)
    (hAdded : input = .report (.added index false)) :
    Asks m input [⟨index, true⟩]
| nothing
    (hActive : ¬ m.Activates input)
    (hDeactive : ¬ m.Deactivates input)
    (hKnown :
      ∀ index, m.level = .requestUp →
        input ≠ .report (.added index false)) :
    Asks m input []

variable
  {m : Manager}
  {input : Input}
  {requests : List Request}

theorem activates_iff :
    m.Activates input ↔
      input = .command .activate ∧ m.level = .down := by
  unfold Activates
  constructor
  · rintro ⟨rfl, hTaken⟩
    refine ⟨rfl, ?_⟩
    unfold step command at hTaken
    cases hLevel : m.level <;> simp_all
  · rintro ⟨rfl, hLevel⟩
    refine ⟨rfl, ?_⟩
    unfold step command
    rw [hLevel]

theorem asks_of_obeys
    {c : Command}
    {m' : Manager}
    (hObeys : m.Obeys c m' requests) :
    m.Asks (.command c) requests := by
  have hQuiet (c : Command)
      (hActivate : c = .activate → m.level ≠ .down)
      (hDeactivate :
        c = .deactivate → ¬ m.level.isActive) :
      m.Asks (.command c) [] := by
    refine .nothing ?_ ?_ nofun
    · rw [activates_iff]
      rintro ⟨hSame, hLevel⟩
      cases hSame
      exact hActivate rfl hLevel
    · rintro ⟨hSame, hActive⟩
      cases hSame
      exact hDeactivate rfl hActive
  cases hObeys with
  | enable hLevel => exact hQuiet .enable nofun nofun
  | disable hLevel => exact hQuiet .disable nofun nofun
  | find hLevel hUp =>
      exact .raise (activates_iff.mpr ⟨rfl, hLevel⟩)
  | request hLevel hDown =>
      exact .raise (activates_iff.mpr ⟨rfl, hLevel⟩)
  | rest hLevel =>
      refine hQuiet .deactivate nofun ?_
      rintro -
      rcases hLevel with hLevel | hLevel <;> rw [hLevel] <;>
        decide
  | letGo hLevel hDown =>
      rw [← hDown]
      exact .lower ⟨rfl, hLevel⟩
  | release hLevel hUp =>
      exact .lower ⟨rfl, hLevel⟩

theorem asks_asked
    (m : Manager)
    (input : Input) :
    m.Asks input (m.asked input) := by
  cases input with
  | command c =>
      unfold asked
      dsimp only
      split
      · next taken hTaken =>
          exact asks_of_obeys (obeys_of_command hTaken)
      · next fault hRefused =>
          refine .nothing ?_ ?_ nofun
          · rintro ⟨hSame, hTaken⟩
            cases hSame
            unfold step at hTaken
            dsimp only at hTaken
            rw [hRefused] at hTaken
            cases hTaken
          · rintro ⟨hSame, hActive⟩
            cases hSame
            unfold command at hRefused
            cases hLevel : m.level <;> simp_all [Level.isActive]
  | report event =>
      unfold asked report requestsAfter
      dsimp only
      split
      · next index hLevel =>
          exact .add hLevel rfl
      · next hOther =>
          refine .nothing ?_ ?_ ?_
          · rintro ⟨⟨⟩, -⟩
          · rintro ⟨⟨⟩, -⟩
          · rintro index hLevel ⟨⟩
            exact hOther index hLevel rfl

------------------------------------------------------------
-- The Queue of Requests
------------------------------------------------------------

theorem requests_eq_queued :
    m.requests input = queued (m.asked input) := by
  cases input with
  | report event =>
      rfl
  | command c =>
      unfold Manager.requests step asked
      dsimp only
      cases m.command c <;> rfl

/- No input leads to more requests than the queue takes. -/
theorem Asks.fits
    (hAsks : m.Asks input requests)
    (hTidy : m.table.Tidy) :
    requests.length ≤ Table.room := by
  have hManaged : m.table.managed.length ≤ Table.room :=
    Nat.le_trans (List.length_filter_le _ _) hTidy.fits
  cases hAsks with
  | raise hActivates =>
      unfold requestsUp
      rw [List.length_map]
      exact hManaged
  | lower hDeactivates =>
      unfold requestsDown
      rw [List.length_map]
      exact
        Nat.le_trans (List.length_filter_le _ _) hManaged
  | add hLevel hAdded =>
      exact Nat.le_add_left 1 7
  | nothing hActive hDeactive hKnown =>
      exact Nat.zero_le _

theorem requests_eq_asked
    (hTidy : m.table.Tidy) :
    m.requests input = m.asked input := by
  rw [requests_eq_queued]
  exact List.take_of_length_le ((asks_asked m input).fits hTidy)

------------------------------------------------------------
-- Steering
------------------------------------------------------------

/-
  A step steers managed interfaces alone. An activation asks all
  of them to come up, a deactivation those that are up to go
  down, in the order of the table; while none is up, one that is
  new in the table is asked to come up. Nothing else is
  requested, and each request is made once and handed over.
-/
structure Steers
    (m : Manager)
    (input : Input) : Prop where
  held :
    ∀ request ∈ m.requests input,
      ∃ row ∈ (m.next input).table.managed,
        row.index = request.index
  raised :
    m.Activates input →
      m.requests input =
        m.table.managed.map (fun row => ⟨row.index, true⟩)
  lowered :
    m.Deactivates input →
      m.requests input =
        (m.table.managed.filter (·.adminUp)).map
          (fun row => ⟨row.index, false⟩)
  added :
    ∀ index, m.Adds index input →
      ∀ request ∈ m.requests input,
        request = ⟨index, true⟩ ∧
          (m.next input).table =
            m.table ++ [.fresh index false]
  quiet :
    ¬ m.Activates input → ¬ m.Deactivates input →
      (∀ index, ¬ m.Adds index input) →
        m.requests input = []
  once : ((m.requests input).map (·.index)).Nodup
  kept : m.requests input = m.asked input

/-
  A step overreaches when an interface is added that the table
  does not take: it knows the index, or it is full.
-/
def Overreaches
    (m : Manager)
    (input : Input) : Prop :=
  m.level = .requestUp ∧
    ∃ index,
      input = .report (.added index false) ∧
        (m.table.tracks index ∨ Table.room ≤ m.table.length)

theorem nodup_managed
    (hTidy : m.table.Tidy) :
    (m.table.managed.map (·.index)).Nodup :=
  hTidy.once.sublist (List.filter_sublist.map _)

theorem Asks.once
    (hAsks : m.Asks input requests)
    (hTidy : m.table.Tidy) :
    (requests.map (·.index)).Nodup := by
  cases hAsks with
  | raise hActivates =>
      unfold requestsUp
      rw [List.map_map]
      exact nodup_managed hTidy
  | lower hDeactivates =>
      unfold requestsDown
      rw [List.map_map]
      exact
        (nodup_managed hTidy).sublist
          (List.filter_sublist.map _)
  | add hLevel hAdded =>
      simp
  | nothing hActive hDeactive hKnown =>
      exact List.nodup_nil

/- A table takes an interface that is new to it, if it fits. -/
theorem table_of_taken
    {index : UInt8}
    {loopback : Bool}
    (hNew :
      ¬ (m.table.tracks index ∨
        Table.room ≤ m.table.length)) :
    (m.next (.report (.added index loopback))).table =
      m.table ++ [.fresh index loopback] := by
  rw [table_next_report]
  unfold Table.record
  exact if_neg hNew

theorem not_overreaching_iff
    {index : UInt8}
    (hLevel : m.level = .requestUp) :
    ¬ m.Overreaches (.report (.added index false)) ↔
      ¬ (m.table.tracks index ∨
        Table.room ≤ m.table.length) := by
  simp [Overreaches, hLevel]

theorem Asks.held
    (hAsks : m.Asks input requests)
    (hMeasured : ¬ m.Overreaches input) :
    ∀ request ∈ requests,
      ∃ row ∈ (m.next input).table.managed,
        row.index = request.index := by
  cases hAsks with
  | raise hActivates =>
      rcases hActivates with ⟨rfl, -⟩
      rw [table_next_command]
      intro request hRequest
      rcases List.mem_map.mp hRequest with ⟨row, hRow, rfl⟩
      exact ⟨row, hRow, rfl⟩
  | lower hDeactivates =>
      rcases hDeactivates with ⟨rfl, -⟩
      rw [table_next_command]
      intro request hRequest
      rcases List.mem_map.mp hRequest with ⟨row, hRow, rfl⟩
      exact ⟨row, List.mem_of_mem_filter hRow, rfl⟩
  | add hLevel hAdded =>
      subst hAdded
      rw [not_overreaching_iff hLevel] at hMeasured
      rw [table_of_taken hMeasured]
      intro request hRequest
      rw [List.mem_singleton.mp hRequest]
      refine ⟨.fresh _ false, ?_, rfl⟩
      rw [Table.mem_managed]
      exact
        ⟨List.mem_append_right _ (List.mem_singleton_self _),
          Bool.false_ne_true⟩
  | nothing hActive hDeactive hKnown =>
      exact nofun

theorem Asks.added
    {index : UInt8}
    (hAsks : m.Asks input requests)
    (hAdds : m.Adds index input)
    (hMeasured : ¬ m.Overreaches input) :
    ∀ request ∈ requests,
      request = ⟨index, true⟩ ∧
        (m.next input).table =
          m.table ++ [.fresh index false] := by
  rcases hAdds with ⟨hLevel, loopback, rfl⟩
  cases hAsks with
  | raise hActivates =>
      cases hActivates.1
  | lower hDeactivates =>
      cases hDeactivates.1
  | add _ hAdded =>
      cases hAdded
      rw [not_overreaching_iff hLevel] at hMeasured
      intro request hRequest
      exact
        ⟨List.mem_singleton.mp hRequest,
          table_of_taken hMeasured⟩
  | nothing hActive hDeactive hKnown =>
      exact nofun

theorem Asks.raised
    (hAsks : m.Asks input requests)
    (hActivates : m.Activates input) :
    requests = requestsUp m.table := by
  cases hAsks with
  | raise _ =>
      rfl
  | lower hDeactivates =>
      cases hActivates.1.symm.trans hDeactivates.1
  | add hLevel hAdded =>
      cases hActivates.1.symm.trans hAdded
  | nothing hActive hDeactive hKnown =>
      exact absurd hActivates hActive

theorem Asks.lowered
    (hAsks : m.Asks input requests)
    (hDeactivates : m.Deactivates input) :
    requests = requestsDown m.table := by
  cases hAsks with
  | raise hActivates =>
      cases hActivates.1.symm.trans hDeactivates.1
  | lower _ =>
      rfl
  | add hLevel hAdded =>
      cases hDeactivates.1.symm.trans hAdded
  | nothing hActive hDeactive hKnown =>
      exact absurd hDeactivates hDeactive

theorem Asks.quiet
    (hAsks : m.Asks input requests)
    (hActive : ¬ m.Activates input)
    (hDeactive : ¬ m.Deactivates input)
    (hNone : ∀ index, ¬ m.Adds index input) :
    requests = [] := by
  cases hAsks with
  | raise hActivates =>
      exact absurd hActivates hActive
  | lower hDeactivates =>
      exact absurd hDeactivates hDeactive
  | add hLevel hAdded =>
      exact absurd ⟨hLevel, false, hAdded⟩ (hNone _)
  | nothing _ _ _ =>
      rfl

/- A step that does not overreach steers managed interfaces. -/
theorem steers_of_not_overreaching
    (hTidy : m.table.Tidy)
    (hMeasured : ¬ m.Overreaches input) :
    m.Steers input := by
  have hAsks := asks_asked m input
  rw [← requests_eq_asked hTidy] at hAsks
  exact
    { held := hAsks.held hMeasured
      raised := hAsks.raised
      lowered := hAsks.lowered
      added := fun _ hAdds => hAsks.added hAdds hMeasured
      quiet := hAsks.quiet
      once := hAsks.once hTidy
      kept := requests_eq_asked hTidy }

theorem requests_of_overreaching
    (index : UInt8)
    (hTidy : m.table.Tidy)
    (hLevel : m.level = .requestUp) :
    m.requests (.report (.added index false)) =
      [⟨index, true⟩] := by
  rw [requests_eq_asked hTidy]
  unfold asked report requestsAfter
  rw [hLevel]

/-
  The table of a manager is tidy at all times, and a step steers
  managed interfaces exactly if it does not overreach.
-/
theorem steers_iff_not_overreaching
    (inputs : List Input)
    (input : Input) :
    (after inputs).table.Tidy ∧
      ((after inputs).Steers input ↔
        ¬ (after inputs).Overreaches input) := by
  have hTidy := tidy_after inputs
  refine ⟨hTidy, ?_, steers_of_not_overreaching hTidy⟩
  rintro hSteers ⟨hLevel, index, rfl, hKnown⟩
  have hRequests :=
    requests_of_overreaching index hTidy hLevel
  have hAdded :=
    hSteers.added index ⟨hLevel, false, rfl⟩ ⟨index, true⟩
      (by rw [hRequests]; exact List.mem_singleton_self _)
  have hSame :
      ((after inputs).next
          (.report (.added index false))).table =
        (after inputs).table :=
    if_pos hKnown
  rw [hSame] at hAdded
  have hLonger := congrArg List.length hAdded.2
  rw [List.length_append, List.length_singleton] at hLonger
  omega

/- The manager waits for interfaces and knows a loopback. -/
def loopbackOnly : List Input :=
  [.command .enable, .report (.added 1 true),
    .command .activate]

/-
  The loopback is reported again, as an interface of another
  kind. The table leaves it as it is, and yet it is asked to
  come up.
-/
theorem request_for_loopback :
    ∃ inputs input request,
      request ∈ (after inputs).requests input ∧
        (∃ row ∈ ((after inputs).next input).table,
          row.index = request.index) ∧
          (∀ row ∈ ((after inputs).next input).table,
            row.index = request.index → row.loopback) ∧
            ¬ (after inputs).Steers input := by
  refine
    ⟨loopbackOnly, .report (.added 1 false), ⟨1, true⟩,
      by decide, by decide, by decide, ?_⟩
  intro hSteers
  have hHeld :
      ¬ ∃ row ∈ ((after loopbackOnly).next
          (.report (.added 1 false))).table.managed,
        row.index = 1 := by
    decide
  exact hHeld (hSteers.held ⟨1, true⟩ (by decide))

end Manager

end Interfaces

end Fota
