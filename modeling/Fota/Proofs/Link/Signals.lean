import Mathlib.Data.List.Basic

/-
  This file defines orders in which signals may come: two that
  take turns, as those of a switch do, and one that does not
  come twice without another between. Each order is kept when
  one more signal comes, given what came last.

  Key definitions include:
    * `Signals.among`
    * `Signals.TakesTurns`
    * `Signals.Switches`
    * `Signals.Parted`
-/

namespace Fota

namespace Signals

variable
  {α : Type}
  [DecidableEq α]
  {kinds signals : List α}
  {first second signal mark : α}

------------------------------------------------------------
-- Signals of Some Kinds
------------------------------------------------------------

/- The signals that are of some kinds. -/
def among
    (kinds signals : List α) : List α :=
  signals.filter (fun signal => signal ∈ kinds)

/- The one of some kinds that came last. -/
def last?
    (kinds signals : List α) : Option α :=
  (among kinds signals).getLast?

theorem among_concat_of_mem
    (hKind : signal ∈ kinds) :
    among kinds (signals ++ [signal]) =
      among kinds signals ++ [signal] := by
  simp [among, hKind]

theorem among_concat_of_not_mem
    (hOther : signal ∉ kinds) :
    among kinds (signals ++ [signal]) =
      among kinds signals := by
  simp [among, hOther]

theorem last?_concat_of_mem
    (hKind : signal ∈ kinds) :
    last? kinds (signals ++ [signal]) = some signal := by
  rw [last?, among_concat_of_mem hKind, List.getLast?_concat]

theorem last?_concat_of_not_mem
    (hOther : signal ∉ kinds) :
    last? kinds (signals ++ [signal]) = last? kinds signals := by
  rw [last?, among_concat_of_not_mem hOther, last?]

------------------------------------------------------------
-- Taking Turns
------------------------------------------------------------

/- Two signals come in turn, beginning with the first one. -/
def TakesTurns : α → α → List α → Prop
| _, _, [] => True
| first, second, signal :: signals =>
    signal = first ∧ TakesTurns second first signals

omit [DecidableEq α] in
theorem TakesTurns.mem
    (hTurns : TakesTurns first second signals)
    (hSignal : signal ∈ signals) :
    signal = first ∨ signal = second := by
  induction signals generalizing first second with
  | nil =>
      cases hSignal
  | cons head signals ih =>
      rcases List.mem_cons.mp hSignal with rfl | hSignal
      · exact .inl hTurns.1
      · exact (ih hTurns.2 hSignal).symm

/- After the first one it is the second one's turn. -/
omit [DecidableEq α] in
theorem TakesTurns.concat
    (hTurns : TakesTurns first second signals)
    (hApart : first ≠ second)
    (hTurn :
      (signals.getLast? = some first ∧ signal = second) ∨
        (signals.getLast? ≠ some first ∧ signal = first)) :
    TakesTurns first second (signals ++ [signal]) := by
  induction signals generalizing first second with
  | nil =>
      rcases hTurn with ⟨hLast, -⟩ | ⟨-, hSignal⟩
      · cases hLast
      · exact ⟨hSignal, trivial⟩
  | cons head signals ih =>
      rcases hTurns with ⟨rfl, hTurns⟩
      refine ⟨rfl, ih hTurns hApart.symm ?_⟩
      cases signals with
      | nil =>
          rcases hTurn with ⟨-, hSignal⟩ | ⟨hLast, -⟩
          · exact .inr ⟨nofun, hSignal⟩
          · exact absurd rfl hLast
      | cons next signals =>
          rw [List.getLast?_cons_cons] at hTurn
          rcases hTurn with ⟨hLast, hSignal⟩ | ⟨hLast, hSignal⟩
          · rw [hLast]
            refine .inr ⟨?_, hSignal⟩
            rw [ne_eq, Option.some.injEq]
            exact hApart
          · refine .inl ⟨?_, hSignal⟩
            have hEnd :=
              List.getLast?_eq_some_getLast
                (List.cons_ne_nil next signals)
            rw [hEnd] at hLast ⊢
            rcases hTurns.mem (List.getLast_mem _) with
              hSecond | hFirst
            · rw [hSecond]
            · rw [hFirst] at hLast
              exact absurd rfl hLast

------------------------------------------------------------
-- Switches
------------------------------------------------------------

/-
  Two signals are those of a switch: they take turns, and the
  switch is on if the first one came last.
-/
structure Switches
    (first second : α)
    (on : Bool)
    (signals : List α) : Prop where
  turns :
    TakesTurns first second (among [first, second] signals)
  last : on ↔ last? [first, second] signals = some first

theorem switches_nil :
    Switches first second false [] :=
  ⟨trivial, by simp [last?, among]⟩

/- A switch that is off is switched on, -/
theorem Switches.switchOn
    (hSwitches : Switches first second false signals)
    (hApart : first ≠ second) :
    Switches first second true (signals ++ [first]) := by
  have hFirst : first ∈ [first, second] :=
    List.mem_cons_self
  constructor
  · rw [among_concat_of_mem hFirst]
    apply hSwitches.turns.concat hApart
    refine .inr ⟨?_, rfl⟩
    exact fun hLast =>
      Bool.false_ne_true (hSwitches.last.mpr hLast)
  · rw [last?_concat_of_mem hFirst]
    exact ⟨fun _ => rfl, fun _ => rfl⟩

/- one that is on is switched off, -/
theorem Switches.switchOff
    (hSwitches : Switches first second true signals)
    (hApart : first ≠ second) :
    Switches first second false (signals ++ [second]) := by
  have hSecond : second ∈ [first, second] :=
    List.mem_cons_of_mem _ (List.mem_singleton_self _)
  constructor
  · rw [among_concat_of_mem hSecond]
    apply hSwitches.turns.concat hApart
    exact .inl ⟨hSwitches.last.mp rfl, rfl⟩
  · rw [last?_concat_of_mem hSecond]
    constructor
    · exact nofun
    · intro hSame
      exact absurd (Option.some.inj hSame).symm hApart

/- and other signals have nothing to do with it. -/
theorem Switches.concat
    {on : Bool}
    (hSwitches : Switches first second on signals)
    (hOther : signal ∉ [first, second]) :
    Switches first second on (signals ++ [signal]) := by
  constructor
  · rw [among_concat_of_not_mem hOther]
    exact hSwitches.turns
  · rw [last?_concat_of_not_mem hOther]
    exact hSwitches.last

------------------------------------------------------------
-- Parted Signals
------------------------------------------------------------

/- Between two marks comes a signal of some other kinds. -/
def Parted
    (mark : α)
    (kinds signals : List α) : Prop :=
  ∀ front middle back,
    signals = front ++ mark :: middle ++ mark :: back →
      ∃ signal ∈ middle, signal ∈ kinds

omit [DecidableEq α] in
theorem parted_nil :
    Parted mark kinds [] := by
  intro front middle back hSplit
  simp at hSplit

/- A mark came last if nothing of the other kinds came since. -/
theorem last?_of_none_since
    {front middle : List α}
    (hNone : ∀ signal ∈ middle, signal ∉ kinds) :
    last? (mark :: kinds) (front ++ mark :: middle) =
      some mark := by
  have hEnd :
      last? (mark :: kinds) (front ++ mark :: middle) =
        (mark :: among (mark :: kinds) middle).getLast? := by
    rw [last?, among, List.filter_append,
      List.filter_cons_of_pos (by simp),
      List.getLast?_append_cons, among]
  rw [hEnd, List.getLast?_eq_some_getLast (List.cons_ne_nil _ _),
    Option.some.injEq]
  rcases List.mem_cons.mp (List.getLast_mem _) with
    hMark | hLast
  · exact hMark
  · rcases List.mem_filter.mp hLast with ⟨hMiddle, hKind⟩
    rcases List.mem_cons.mp (of_decide_eq_true hKind) with
      hMark | hKind
    · exact hMark
    · exact absurd hKind (hNone _ hMiddle)

/-
  One more signal leaves marks parted, unless it is a mark that
  comes right after another.
-/
theorem Parted.concat
    (hParted : Parted mark kinds signals)
    (hLast :
      signal = mark →
        last? (mark :: kinds) signals ≠ some mark) :
    Parted mark kinds (signals ++ [signal]) := by
  intro front middle back hSplit
  rcases List.eq_nil_or_concat back with
    rfl | ⟨back, last, rfl⟩
  · have hEnds :=
      List.append_inj' hSplit rfl
    rcases hEnds with ⟨rfl, hMark⟩
    by_contra hNone
    apply hLast (List.singleton_inj.mp hMark)
    apply last?_of_none_since
    intro other hOther hKind
    exact hNone ⟨other, hOther, hKind⟩
  · rw [List.concat_eq_append, ← List.cons_append,
      ← List.append_assoc] at hSplit
    exact
      hParted front middle back
        (List.append_inj' hSplit rfl).1

end Signals

end Fota
