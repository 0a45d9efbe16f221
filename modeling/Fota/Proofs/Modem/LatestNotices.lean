import Fota.Proofs.Modem.Readings
import Mathlib.Data.List.DropRight

/-
  This file shows that a mailbox hands over the latest notice of
  each kind. Its cells differ in what empties them: a completed
  transfer is taken or forgotten, a deactivated context is taken,
  and install progress stays until it is forgotten, or until the
  value is reported that stands for none.

  Key definitions include:
    * `Mailbox.Kind`
    * `Mailbox.Act`
    * `Mailbox.serve`
    * `Mailbox.Kind.step`
    * `Mailbox.latest?`
    * `Mailbox.HandsLatest`

  The main statement is `Mailbox.latest_notices_handed_over`.
-/

namespace Fota

namespace Mailbox

------------------------------------------------------------
-- Kinds of Notices
------------------------------------------------------------

/- The kinds of notices that a mailbox has a cell for. -/
inductive Kind where
| completion
| deactivation
| progress
deriving DecidableEq

namespace Kind

/- What a well-formed notice of a kind reports. -/
@[reducible]
def Value : Kind → Type
| completion => Completion
| deactivation => UInt8
| progress => UInt8

/- The lead of the notices of a kind. -/
def lead : Kind → List Char
| completion => Report.completionLead
| deactivation => Report.contextLead
| progress => Report.progressLead

/- What a line reports, if it is a well-formed notice. -/
def read? : (kind : Kind) → String → Option kind.Value
| completion, line => Report.completion? line
| deactivation, line => Report.deactivation? line
| progress, line => Report.progress? line

/- What is shown of a reported value. -/
def shown : (kind : Kind) → kind.Value → Option kind.Value
| completion, value => some value
| deactivation, value => some value
| progress, value => shownProgress value

/- What a line leaves in the cell of a kind. -/
def update
    (kind : Kind)
    (line : String)
    (held : Option kind.Value) : Option kind.Value :=
  match kind.read? line with
  | some value => kind.shown value
  | none => held

/- The kind of notice that a line is by its lead. -/
def ofLine?
    (line : String) : Option Kind :=
  [completion, deactivation, progress].find?
    (fun kind => Text.leads kind.lead line.toList)

variable
  {kind other : Kind}
  {line : String}

/- A line has the lead of one kind at most, -/
theorem eq_of_leads
    (hLead : Text.leads kind.lead line.toList = true)
    (hOther : Text.leads other.lead line.toList = true) :
    kind = other := by
  rw [Text.leads_iff_prefix] at hLead hOther
  have hNested := List.prefix_or_prefix_of_prefix hLead hOther
  revert hNested
  cases kind <;> cases other <;> decide

/- so it is a notice of just that kind. -/
theorem ofLine?_eq_some_iff :
    ofLine? line = some kind ↔
      Text.leads kind.lead line.toList = true := by
  have hLeads
      {other : Kind}
      (hOther : ofLine? line = some other) :
      Text.leads other.lead line.toList = true := by
    have hFound := List.find?_some hOther
    exact hFound
  constructor
  · exact hLeads
  · intro hLead
    have hSome : (ofLine? line).isSome = true := by
      unfold ofLine?
      rw [List.find?_isSome]
      exact ⟨kind, by cases kind <;> simp, hLead⟩
    rcases Option.isSome_iff_exists.mp hSome with
      ⟨other, hOther⟩
    rw [hOther, eq_of_leads hLead (hLeads hOther)]

/- What is not of a kind reports nothing of that kind. -/
theorem read?_of_not_leads
    (hOther : Text.leads kind.lead line.toList = false) :
    kind.read? line = none := by
  have hNone := Text.after?_of_not_leads hOther
  cases kind with
  | completion =>
      change Report.completion? line = none
      unfold Report.completion? Report.fields?
      rw [show Text.after? Report.completionLead _ = _ from hNone]
      rfl
  | deactivation =>
      change Report.deactivation? line = none
      unfold Report.deactivation?
      rw [show Text.after? Report.contextLead _ = _ from hNone]
      rfl
  | progress =>
      change Report.progress? line = none
      unfold Report.progress? Report.fields?
      rw [show Text.after? Report.progressLead _ = _ from hNone]
      rfl

theorem update_of_none
    (kind : Kind)
    {held : Option kind.Value}
    (hNone : kind.read? line = none) :
    kind.update line held = held := by
  rw [update, hNone]

theorem update_of_some
    (kind : Kind)
    {held : Option kind.Value}
    {value : kind.Value}
    (hRead : kind.read? line = some value) :
    kind.update line held = kind.shown value := by
  rw [update, hRead]

end Kind

------------------------------------------------------------
-- Cells
------------------------------------------------------------

/- What the cell of a kind holds. -/
def holds
    (m : Mailbox) : (kind : Kind) → Option kind.Value
| .completion => m.completion
| .deactivation => m.deactivation
| .progress => m.progress

/- Keep what a line reports of a kind. -/
def put
    (kind : Kind)
    (line : String)
    (m : Mailbox) : Mailbox :=
  match kind with
  | .completion => m.putCompletion line
  | .deactivation => m.putDeactivation line
  | .progress => m.putProgress line

variable
  {kind other : Kind}
  {line : String}
  {m m' : Mailbox}

/- Mailboxes that hold the same are the same. -/
theorem ext_holds
    (hSame : ∀ kind, m.holds kind = m'.holds kind) :
    m = m' := by
  rcases m with ⟨completion, deactivation, progress⟩
  rcases m' with ⟨completion', deactivation', progress'⟩
  rw [Mailbox.mk.injEq]
  exact
    ⟨hSame .completion, hSame .deactivation, hSame .progress⟩

/- What is kept of a kind is shown in its cell, -/
theorem holds_put
    (kind : Kind)
    (line : String)
    (m : Mailbox) :
    (m.put kind line).holds kind =
      kind.update line (m.holds kind) := by
  cases kind with
  | completion =>
      change (m.putCompletion line).completion = _
      unfold putCompletion
      cases hRead : Report.completion? line with
      | none => rw [Kind.update_of_none .completion hRead]; rfl
      | some value =>
          rw [Kind.update_of_some .completion hRead]
          rfl
  | deactivation =>
      change (m.putDeactivation line).deactivation = _
      unfold putDeactivation
      cases hRead : Report.deactivation? line with
      | none => rw [Kind.update_of_none .deactivation hRead]; rfl
      | some value =>
          rw [Kind.update_of_some .deactivation hRead]
          rfl
  | progress =>
      change (m.putProgress line).progress = _
      unfold putProgress
      cases hRead : Report.progress? line with
      | none => rw [Kind.update_of_none .progress hRead]; rfl
      | some value =>
          rw [Kind.update_of_some .progress hRead]
          rfl

/- and leaves the other cells alone. -/
theorem holds_put_of_ne
    (line : String)
    (m : Mailbox)
    (hApart : kind ≠ other) :
    (m.put other line).holds kind = m.holds kind := by
  cases other with
  | completion =>
      change (m.putCompletion line).holds kind = _
      unfold putCompletion
      split
      · cases kind with
        | completion => exact absurd rfl hApart
        | deactivation => rfl
        | progress => rfl
      · rfl
  | deactivation =>
      change (m.putDeactivation line).holds kind = _
      unfold putDeactivation
      split
      · cases kind with
        | completion => rfl
        | deactivation => exact absurd rfl hApart
        | progress => rfl
      · rfl
  | progress =>
      change (m.putProgress line).holds kind = _
      unfold putProgress
      split
      · cases kind with
        | completion => rfl
        | deactivation => rfl
        | progress => exact absurd rfl hApart
      · rfl

/- A notice is kept as one of its kind. -/
theorem deliver_of_leads
    (m : Mailbox)
    (hLead : Text.leads kind.lead line.toList = true) :
    m.deliver line = (true, m.put kind line) := by
  have hOther
      (other : Kind)
      (hApart : other ≠ kind) :
      Text.leads other.lead line.toList = false :=
    Bool.eq_false_iff.mpr fun hOther =>
      hApart (Kind.eq_of_leads hOther hLead)
  unfold deliver
  cases kind with
  | completion =>
      exact if_pos hLead
  | deactivation =>
      rw [show Text.leads Report.completionLead _ = _ from
        hOther .completion nofun]
      exact if_pos hLead
  | progress =>
      rw [show Text.leads Report.completionLead _ = _ from
          hOther .completion nofun,
        show Text.leads Report.contextLead _ = _ from
          hOther .deactivation nofun]
      exact if_pos hLead

/- A line without any lead is not taken. -/
theorem isNotice_eq
    (line : String) :
    Report.isNotice line = (Kind.ofLine? line).isSome := by
  rw [Bool.eq_iff_iff, Kind.ofLine?, List.find?_isSome]
  simp [Report.isNotice, Kind.lead, or_assoc]

/- A line leaves in each cell what it reports of its kind. -/
theorem holds_deliver
    (kind : Kind)
    (line : String)
    (m : Mailbox) :
    (m.deliver line).2.holds kind =
      kind.update line (m.holds kind) := by
  by_cases hLead : Text.leads kind.lead line.toList = true
  · rw [deliver_of_leads m hLead]
    exact holds_put kind line m
  · have hNone : kind.read? line = none :=
      Kind.read?_of_not_leads (Bool.eq_false_iff.mpr hLead)
    rw [Kind.update_of_none kind hNone]
    cases hLine : Kind.ofLine? line with
    | none =>
        have hNotice : Report.isNotice line = false := by
          rw [isNotice_eq, hLine]
          rfl
        rw [deliver_of_not_notice hNotice]
    | some other =>
        have hOther := Kind.ofLine?_eq_some_iff.mp hLine
        rw [deliver_of_leads m hOther]
        apply holds_put_of_ne line m
        rintro rfl
        exact hLead hOther

------------------------------------------------------------
-- Acts
------------------------------------------------------------

/- What is done with a mailbox. -/
inductive Act where
| deliver (line : String)
| takeCompletion
| clearCompletion
| takeDeactivation
| readProgress
| clearProgress
deriving DecidableEq

namespace Act

/- What an act is answered with. -/
@[reducible]
def Answer : Act → Type
| deliver _ => Bool
| takeCompletion => Option Completion
| clearCompletion => Unit
| takeDeactivation => Option UInt8
| readProgress => Option UInt8
| clearProgress => Unit

/- The line that an act hands over, if it does that. -/
def line? : Act → Option String
| deliver line => some line
| _ => none

/- The kind of notices that an act is about, if there is one. -/
def kind? : Act → Option Kind
| deliver line => Kind.ofLine? line
| takeCompletion | clearCompletion => some .completion
| takeDeactivation => some .deactivation
| readProgress | clearProgress => some .progress

/- The act empties the cell of a kind. -/
def Empties : Act → Kind → Prop
| takeCompletion, .completion => True
| clearCompletion, .completion => True
| takeDeactivation, .deactivation => True
| clearProgress, .progress => True
| _, _ => False

instance
    (act : Act)
    (kind : Kind) :
    Decidable (act.Empties kind) := by
  cases act <;> cases kind <;> unfold Empties <;> infer_instance

end Act

/- Carry an act out. -/
def serve
    (m : Mailbox) : (act : Act) → act.Answer × Mailbox
| .deliver line => m.deliver line
| .takeCompletion => m.takeCompletion
| .clearCompletion => ((), m.clearCompletion)
| .takeDeactivation => m.takeDeactivation
| .readProgress => (m.progress, m)
| .clearProgress => ((), m.clearProgress)

/- A mailbox after some acts. -/
def after
    (m : Mailbox)
    (acts : List Act) : Mailbox :=
  acts.foldl (fun m act => (m.serve act).2) m

variable
  {act : Act}
  {acts : List Act}

theorem after_concat
    (m : Mailbox)
    (acts : List Act)
    (act : Act) :
    m.after (acts ++ [act]) = ((m.after acts).serve act).2 := by
  simp [after]

/- What an act leaves in the cell of a kind. -/
def Kind.step
    (kind : Kind)
    (act : Act)
    (held : Option kind.Value) : Option kind.Value :=
  if act.Empties kind then
    none
  else
    match act.line? with
    | some line => kind.update line held
    | none => held

/- Each cell goes its own way. -/
theorem holds_serve
    (kind : Kind)
    (act : Act)
    (m : Mailbox) :
    (m.serve act).2.holds kind =
      kind.step act (m.holds kind) := by
  cases act with
  | deliver line =>
      rw [Kind.step, if_neg (by cases kind <;> exact id)]
      exact holds_deliver kind line m
  | takeCompletion => cases kind <;> rfl
  | clearCompletion => cases kind <;> rfl
  | takeDeactivation => cases kind <;> rfl
  | readProgress => cases kind <;> rfl
  | clearProgress => cases kind <;> rfl

/- An act of another kind leaves a cell alone, -/
theorem step_of_apart
    {held : Option kind.Value}
    (hApart : act.kind? ≠ some kind) :
    kind.step act held = held := by
  cases act with
  | deliver line =>
      have hNone : kind.read? line = none := by
        apply Kind.read?_of_not_leads
        rw [Bool.eq_false_iff, ne_eq,
          ← Kind.ofLine?_eq_some_iff]
        exact hApart
      rw [Kind.step, if_neg (by cases kind <;> exact id)]
      exact Kind.update_of_none kind hNone
  | _ =>
      cases kind <;> first | rfl | exact absurd rfl hApart

/- so a cell is what the acts of its kind make of it. -/
theorem holds_after_filter
    (kind : Kind)
    (acts : List Act)
    (m : Mailbox) :
    (m.after
        (acts.filter (fun act => act.kind? = some kind))).holds
          kind =
      (m.after acts).holds kind := by
  induction acts using List.reverseRecOn with
  | nil =>
      rfl
  | append_singleton acts act ih =>
      rw [after_concat, holds_serve, List.filter_append]
      by_cases hKind : act.kind? = some kind
      · rw [List.filter_cons_of_pos (by simpa using hKind),
          List.filter_nil, after_concat, holds_serve, ih]
      · rw [List.filter_cons_of_neg (by simpa using hKind),
          List.filter_nil, List.append_nil, step_of_apart hKind,
          ih]

------------------------------------------------------------
-- The Latest Notice
------------------------------------------------------------

/-
  What the last well-formed notice of a kind reports, among
  those since an act last emptied the cell of that kind.
-/
def latest?
    (kind : Kind)
    (acts : List Act) : Option kind.Value :=
  ((acts.rtakeWhile (fun act => ¬ act.Empties kind)).filterMap
    (fun act => act.line?.bind kind.read?)).getLast?

theorem latest?_of_empties
    (acts : List Act)
    (hEmpties : act.Empties kind) :
    latest? kind (acts ++ [act]) = none := by
  unfold latest?
  rw [List.rtakeWhile_concat_neg _ _ _ (by simpa using hEmpties)]
  rfl

theorem latest?_of_not_empties
    (acts : List Act)
    (hKept : ¬ act.Empties kind) :
    latest? kind (acts ++ [act]) =
      (act.line?.bind kind.read?).or (latest? kind acts) := by
  unfold latest?
  rw [List.rtakeWhile_concat_pos _ _ _ (by simpa using hKept),
    List.filterMap_append]
  cases hRead : act.line?.bind kind.read? with
  | none => simp [hRead]
  | some value => simp [hRead]

/- A cell shows the latest notice of its kind. -/
theorem holds_after
    (kind : Kind)
    (acts : List Act) :
    (empty.after acts).holds kind =
      (latest? kind acts).bind kind.shown := by
  induction acts using List.reverseRecOn with
  | nil =>
      cases kind <;> rfl
  | append_singleton acts act ih =>
      rw [after_concat, holds_serve, ih, Kind.step]
      by_cases hEmpties : act.Empties kind
      · rw [if_pos hEmpties, latest?_of_empties acts hEmpties]
        rfl
      · rw [if_neg hEmpties,
          latest?_of_not_empties acts hEmpties]
        cases act.line? with
        | none => rfl
        | some line =>
            change kind.update line _ = _
            cases hRead : kind.read? line with
            | none =>
                rw [Kind.update_of_none kind hRead]
                simp [hRead]
            | some value =>
                rw [Kind.update_of_some kind hRead]
                simp [hRead]

/- The value that stands for no progress hides an earlier one. -/
example :
    (empty.after
        [.deliver "+UUFWINSTALL: 40",
          .deliver "+UUFWINSTALL: 255"]).progress = none := by
  decide

/- The answer that is due to an act after others. -/
def Act.due : (act : Act) → List Act → act.Answer
| deliver line, _ => Report.isNotice line
| takeCompletion, acts => latest? .completion acts
| clearCompletion, _ => ()
| takeDeactivation, acts => latest? .deactivation acts
| readProgress, acts =>
    (latest? .progress acts).bind shownProgress
| clearProgress, _ => ()

/-
  After some acts, each act gets the answer that is due. A line
  that is no well-formed notice changes nothing, nor does reading
  the progress; and neither the cell nor the answers of a kind
  depend on the acts of another.
-/
structure HandsLatest
    (acts : List Act) : Prop where
  answers :
    ∀ act, ((empty.after acts).serve act).1 = act.due acts
  malformed :
    ∀ line, (∀ kind : Kind, kind.read? line = none) →
      ((empty.after acts).serve (.deliver line)).2 =
        empty.after acts
  reads :
    ((empty.after acts).serve .readProgress).2 =
      empty.after acts
  apart :
    ∀ (kind : Kind) (act : Act), act.kind? ≠ some kind →
      ((empty.after acts).serve act).2.holds kind =
        (empty.after acts).holds kind
  alone :
    ∀ (kind : Kind) (act : Act), act.kind? = some kind →
      ((empty.after acts).serve act).1 =
        ((empty.after
            (acts.filter (fun act => act.kind? = some kind))).serve
          act).1

/- An act is answered from the cell of its kind. -/
theorem serve_fst_congr
    (hKind : act.kind? = some kind)
    (hSame : m.holds kind = m'.holds kind) :
    (m.serve act).1 = (m'.serve act).1 := by
  cases act with
  | deliver line =>
      exact (deliver_fst line m).trans (deliver_fst line m').symm
  | takeCompletion => cases hKind; exact hSame
  | clearCompletion => rfl
  | takeDeactivation => cases hKind; exact hSame
  | readProgress => cases hKind; exact hSame
  | clearProgress => rfl

/- An act gets the answer that is due. -/
theorem serve_fst_after
    (act : Act)
    (acts : List Act) :
    ((empty.after acts).serve act).1 = act.due acts := by
  cases act with
  | deliver line => exact deliver_fst line _
  | takeCompletion =>
      exact
        (holds_after .completion acts).trans
          (Option.bind_fun_some _)
  | clearCompletion => rfl
  | takeDeactivation =>
      exact
        (holds_after .deactivation acts).trans
          (Option.bind_fun_some _)
  | readProgress => exact holds_after .progress acts
  | clearProgress => rfl

/- The latest notices are handed over after any acts. -/
theorem latest_notices_handed_over
    (acts : List Act) :
    HandsLatest acts where
  answers act := serve_fst_after act acts
  malformed line hMalformed := by
    apply ext_holds
    intro kind
    exact
      (holds_deliver kind line _).trans
        (Kind.update_of_none kind (hMalformed kind))
  reads := rfl
  apart kind act hApart := by
    rw [holds_serve, step_of_apart hApart]
  alone kind act hKind :=
    serve_fst_congr hKind
      (holds_after_filter kind acts empty).symm

end Mailbox

end Fota
